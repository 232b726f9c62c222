import Switchboard.Proofs.Json.RoundTrip
import Switchboard.Proofs.Tree.Alike
import Switchboard.Proofs.Tree.Storable
/-!
# Writing back what was read

The value of a node in a well-formed tree is ordered and can be stored
(`Node.WellFormed.ordered_toJson`, `Node.WellFormed.isStorable_toJson`), and so is what comes back
from its text (`Json.isStorable_reread`). A value that can be stored is written where a node was
found, if the revision that is expected is the node's (`Tree.fst_set_exact`).
-/

namespace Switchboard

/-! ## Values that come back from text -/

namespace Json

variable {v : Json} {items : List Json} {fields : List (String × Json)}

/-- Fields can be stored if every key can be named and every value can be stored. -/
theorem areStorable_iff :
    AreStorable fields ↔ ∀ field ∈ fields, Node.isAddressable field.1 ∧ field.2.IsStorable := by
  induction fields with
  | nil => simp [AreStorable]
  | cons field rest ih =>
    obtain ⟨key, v⟩ := field
    simp [AreStorable, ih, and_assoc]

/-- A value has no parts if what comes back has none. -/
theorem isScalar_reread (h : v.isScalar = true) : v.reread.isScalar = true := by
  cases v with
  | null | bool | number | string => rfl
  | array | object => cases h

/-- Items without parts come back without parts. -/
theorem isScalar_of_mem_rereadItems (h : ∀ item ∈ items, item.isScalar = true) :
    ∀ item ∈ rereadItems items, item.isScalar = true := by
  induction items with
  | nil => exact nofun
  | cons x xs ih =>
    intro item hitem
    rcases List.mem_cons.1 hitem with rfl | hitem
    · exact isScalar_reread (h x List.mem_cons_self)
    · exact ih (fun y hy => h y (List.mem_cons_of_mem x hy)) item hitem

mutual
/-- What comes back from the text of a value can be stored if the value can. -/
theorem isStorable_reread : ∀ {v : Json}, v.IsStorable → v.reread.IsStorable
  | .null, _ | .bool _, _ | .number _, _ | .string _, _ => trivial
  | .array _, h => isScalar_of_mem_rereadItems h
  | .object _, h => areStorable_rereadFields h

/-- `isStorable_reread` for the fields of an object. -/
theorem areStorable_rereadFields :
    ∀ {fields : List (String × Json)}, AreStorable fields → AreStorable (rereadFields fields)
  | [], _ => trivial
  | (_, _) :: _, ⟨hkey, hv, hrest⟩ => ⟨hkey, isStorable_reread hv, areStorable_rereadFields hrest⟩
end

end Json

namespace Node

variable {n : Nat} {here : Address} {node part : Node} {v : Json} {path : List String}
  {cs : List (String × Node)} {held : Leaf}

/-! ## The value of a node -/

/-- A node is made of every value that can be stored. -/
theorem exists_ofJson (h : v.IsStorable) (n : Nat) (here : Address) :
    ∃ node, ofJson n here v = .ok node := by
  rw [← refusal?_eq_none_iff, refusal?_ofJson, (Json.offences_eq_nil_iff here v).2 h]
  rfl

/-- The value of a leaf is a scalar or a list of scalars. -/
theorem isStorable_leaf (held : Leaf) : held.toJson.IsStorable := by
  cases held with
  | scalar s => cases s <;> trivial
  | list items =>
    intro item hitem
    obtain ⟨s, -, rfl⟩ := List.mem_map.1 hitem
    cases s <;> rfl

theorem ordered_leaf (held : Leaf) : held.toJson.Ordered := by
  cases held with
  | scalar s => cases s <;> trivial
  | list items =>
    show Json.OrderedItems (items.map Scalar.toJson)
    induction items with
    | nil => trivial
    | cons s items ih => exact ⟨by cases s <;> trivial, ih⟩

/-- The value of a well-formed node can be stored, and the keys in it are in order. -/
theorem WellFormed.ordered_and_isStorable : ∀ {node : Node}, node.WellFormed →
    node.toJson.Ordered ∧ node.toJson.IsStorable
  | leaf _ held, _ => ⟨ordered_leaf held, isStorable_leaf held⟩
  | container n cs, h => by
    obtain ⟨hasc, hnames⟩ := h [] _ get?_nil
    have hchildren : ∀ field ∈ toJsonChildren cs, ∃ child, (field.1, child) ∈ cs ∧
        child.toJson = field.2 := fun field hfield => mem_toJsonChildren.1 hfield
    refine ⟨⟨?_, Json.orderedFields_iff.2 fun field hfield => ?_⟩,
      Json.areStorable_iff.2 fun field hfield => ?_⟩
    · rwa [Keyed.Ascending, keys_toJsonChildren]
    · obtain ⟨child, hchild, hvalue⟩ := hchildren field hfield
      rw [← hvalue]
      exact (WellFormed.ordered_and_isStorable (h.of_mem hchild)).1
    · obtain ⟨child, hchild, hvalue⟩ := hchildren field hfield
      rw [← hvalue]
      exact ⟨hnames _ (List.mem_map_of_mem hchild),
        (WellFormed.ordered_and_isStorable (h.of_mem hchild)).2⟩
termination_by node => sizeOf node
decreasing_by
  all_goals
    have hlt := List.sizeOf_lt_of_mem hchild
    simp only [Prod.mk.sizeOf_spec, container.sizeOf_spec] at hlt ⊢
    omega

/-- The value of a child nests less than that of its container. -/
theorem depth_le_depthFields {name : String} {child : Node} (h : (name, child) ∈ cs) :
    child.toJson.depth ≤ Json.depthFields (toJsonChildren cs) := by
  induction cs with
  | nil => cases h
  | cons entry rest ih =>
    obtain ⟨k, x⟩ := entry
    rw [toJsonChildren, Json.depthFields]
    rcases List.mem_cons.1 h with heq | hrest
    · cases heq
      exact le_max_left _ _
    · exact (ih hrest).trans (le_max_right _ _)

/-- The value of a node nests as many objects as there are steps to a node below it. -/
theorem length_le_depth (h : node.get? path = some part) : path.length ≤ node.toJson.depth := by
  induction path generalizing node with
  | nil => exact Nat.zero_le _
  | cons name path ih =>
    rw [get?_cons] at h
    obtain ⟨child, hchild, hpart⟩ := Option.bind_eq_some_iff.1 h
    cases node with
    | leaf => cases hchild
    | container n cs =>
      rw [toJson, Json.depth]
      exact Nat.succ_le_succ ((ih hpart).trans (depth_le_depthFields (Keyed.mem_of_lookup hchild)))

/-- The walk of a write finds a node where it is. -/
theorem probe_of_get? (h : node.get? path = some part) :
    node.probe path = .ok (some part.revision) := by
  induction path generalizing node with
  | nil =>
    cases h
    cases part <;> rfl
  | cons name path ih =>
    rw [get?_cons] at h
    obtain ⟨child, hchild, hpart⟩ := Option.bind_eq_some_iff.1 h
    cases node with
    | leaf => cases hchild
    | container n cs =>
      rw [children_container] at hchild
      simp only [probe, hchild, ih hpart]
      rfl

end Node

namespace Tree

variable {t : Tree} {a : Address} {v : Json} {part : Node} {expected : UInt64}

/-- A value that can be stored is written where a node is, if the revision of the node is
expected. -/
theorem fst_set_exact (hpart : t.root.get? a.segments = some part) (hv : v.IsStorable)
    (hrevision : expected.toNat = part.revision) :
    (t.set a v (.exact expected)).1 = .ok (t.revision + 1) := by
  obtain ⟨node, hnode⟩ := Node.exists_ofJson hv (t.revision + 1) a
  have hprobe := Node.probe_of_get? hpart
  have hfound : t.probe a = .ok (some part.revision) := by
    rw [probe, hprobe]
    rfl
  have hcheck : Precondition.check a (some part.revision) (.exact expected) = .ok () :=
    if_pos hrevision
  simp only [set, hfound, hcheck, hnode]
  exact commit_ok fun parents name hsegments => Node.stamp_ok_of_probe (hsegments ▸ hprobe)

/-- Every value that can be stored can be written to a new tree. -/
theorem fst_set_new (a : Address) (hv : v.IsStorable) : (new.set a v .unchecked).1 = .ok 1 := by
  obtain ⟨node, hnode⟩ := Node.exists_ofJson hv 1 a
  obtain ⟨current, hprobe⟩ : ∃ current, new.root.probe a.segments = .ok current := by
    cases a.segments <;> exact ⟨_, rfl⟩
  have hfound : new.probe a = .ok current := by
    rw [probe, hprobe]
    rfl
  have hrevision : new.revision = 0 := rfl
  simp only [set, hfound, Precondition.check, hrevision, hnode]
  exact commit_ok fun parents name hsegments => Node.stamp_ok_of_probe (hsegments ▸ hprobe)

end Tree

end Switchboard
