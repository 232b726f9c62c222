import Switchboard.Proofs.Tree.Names
/-!
# Nodes that differ in their revisions only

Two nodes are alike if they have the same paths, with containers on the same ones and leaves that
hold the same on the others. What is made of one value under two revisions is alike
(`Holds.alike`), and well-formed nodes that are alike have the same value (`Alike.toJson_eq`).
Whether a node can be made of a value does not depend on the revision either
(`ofJson_outcome`).
-/

namespace Switchboard.Node

variable {n m : Nat} {v : Json} {a b : Node} {q : List String} {cs ds : List (String × Node)}

/-! ## Making a node -/

mutual
/-- Whether a node can be made of a value, and what is reported otherwise, does not depend on the
revision. -/
theorem ofJson_outcome (n m : Nat) : ∀ (here : Address) (v : Json),
    (ofJson n here v).map (fun _ => ()) = (ofJson m here v).map fun _ => ()
  | _, .null | _, .bool _ | _, .number _ | _, .string _ => rfl
  | here, .array items => by
    simp only [ofJson]
    cases scalars 0 items <;> rfl
  | here, .object fields => by
    have hfields := ofJsonFields_outcome n m here fields
    simp only [ofJson]
    cases hn : ofJsonFields n here fields <;> cases hm : ofJsonFields m here fields <;>
      rw [hn, hm] at hfields <;> cases hfields <;> rfl

/-- The same of the fields of an object. -/
theorem ofJsonFields_outcome (n m : Nat) : ∀ (here : Address) (fields : List (String × Json)),
    (ofJsonFields n here fields).map (fun _ => ()) =
      (ofJsonFields m here fields).map fun _ => ()
  | _, [] => rfl
  | here, (name, value) :: rest => by
    have hvalue := ofJson_outcome n m (here.child name) value
    have hrest := ofJsonFields_outcome n m here rest
    simp only [ofJsonFields]
    split
    · cases hn : ofJson n (here.child name) value <;>
        cases hm : ofJson m (here.child name) value <;>
        rw [hn, hm] at hvalue <;> cases hvalue
      · rfl
      · cases hn' : ofJsonFields n here rest <;> cases hm' : ofJsonFields m here rest <;>
          rw [hn', hm'] at hrest <;> cases hrest <;> rfl
    · rfl
end

/-! ## Alike nodes -/

/-- What a leaf holds; a container holds nothing itself. -/
def leafValue? : Node → Option Json
  | leaf _ held => some held.toJson
  | container .. => none

/-- The two nodes have containers on the same paths, and leaves that hold the same. -/
def Alike (a b : Node) : Prop :=
  ∀ q, (a.get? q).map leafValue? = (b.get? q).map leafValue?

namespace Alike

theorem symm (h : a.Alike b) : b.Alike a := fun q => (h q).symm

/-- A node that stands in one of two alike nodes has an alike one in the other. -/
theorem of_get? {part : Node} (h : a.Alike b) (hpart : a.get? q = some part) :
    ∃ part', b.get? q = some part' ∧ part.Alike part' := by
  have hq := h q
  rw [hpart] at hq
  cases hpart' : b.get? q with
  | none =>
    rw [hpart'] at hq
    cases hq
  | some part' =>
    refine ⟨part', rfl, fun r => ?_⟩
    have hr := h (q ++ r)
    rwa [get?_append, get?_append, hpart, hpart'] at hr

/-- The children of alike nodes are alike. -/
theorem of_lookup {name : String} {child : Node} (h : a.Alike b)
    (hchild : a.children.lookup name = some child) :
    ∃ child', b.children.lookup name = some child' ∧ child.Alike child' := by
  simp only [← get?_singleton] at hchild ⊢
  exact h.of_get? hchild

end Alike

/-- The fields of a container's value are the values of its children. -/
theorem mem_toJsonChildren {name : String} {w : Json} :
    (name, w) ∈ toJsonChildren cs ↔ ∃ child, (name, child) ∈ cs ∧ child.toJson = w := by
  induction cs with
  | nil => simp [toJsonChildren]
  | cons entry rest ih =>
    obtain ⟨k, x⟩ := entry
    simp only [toJsonChildren, List.mem_cons, ih, Prod.mk.injEq]
    constructor
    · rintro (⟨rfl, rfl⟩ | ⟨child, hmem, hw⟩)
      · exact ⟨x, .inl ⟨rfl, rfl⟩, rfl⟩
      · exact ⟨child, .inr hmem, hw⟩
    · rintro ⟨child, ⟨rfl, rfl⟩ | hmem, hw⟩
      · exact .inl ⟨rfl, hw.symm⟩
      · exact .inr ⟨child, hmem, hw⟩

/-- The fields of a container's value have the names of its children. -/
theorem keys_toJsonChildren : (toJsonChildren cs).map Prod.fst = cs.map Prod.fst := by
  induction cs with
  | nil => rfl
  | cons entry rest ih => rw [toJsonChildren, List.map_cons, List.map_cons, ih]

/-- Alike children in order have the same values, if that holds of each of them. -/
theorem toJsonChildren_eq_of_alike (hcs : Keyed.Ascending cs) (hds : Keyed.Ascending ds)
    (h : (container n cs).Alike (container m ds))
    (hsame : ∀ name child child', (name, child) ∈ cs → (name, child') ∈ ds → child.Alike child' →
      child.toJson = child'.toJson) : toJsonChildren cs = toJsonChildren ds := by
  have hasc : ∀ {es : List (String × Node)}, Keyed.Ascending es →
      Keyed.Ascending (toJsonChildren es) := fun hes => by
    rwa [Keyed.Ascending, keys_toJsonChildren]
  refine (hasc hcs).ext (hasc hds) fun ⟨name, w⟩ => ?_
  rw [mem_toJsonChildren, mem_toJsonChildren]
  constructor
  · rintro ⟨child, hchild, rfl⟩
    obtain ⟨child', hchild', halike⟩ := h.of_lookup ((Keyed.mem_iff_lookup hcs).1 hchild)
    replace hchild' := (Keyed.mem_iff_lookup hds).2 hchild'
    exact ⟨child', hchild', (hsame name child child' hchild hchild' halike).symm⟩
  · rintro ⟨child', hchild', rfl⟩
    obtain ⟨child, hchild, halike⟩ := h.symm.of_lookup ((Keyed.mem_iff_lookup hds).1 hchild')
    replace hchild := (Keyed.mem_iff_lookup hcs).2 hchild
    exact ⟨child, hchild, hsame name child child' hchild hchild' halike.symm⟩

/-- The child of a well-formed container is well formed. -/
theorem WellFormed.of_mem {name : String} {child : Node} (h : (container n cs).WellFormed)
    (hchild : (name, child) ∈ cs) : child.WellFormed := by
  have hasc : Keyed.Ascending cs := (h [] _ get?_nil).1
  exact h.of_get? (get?_singleton.trans ((Keyed.mem_iff_lookup hasc).1 hchild))

/-- Alike nodes have the same value. -/
theorem Alike.toJson_eq : ∀ {a b : Node}, a.WellFormed → b.WellFormed → a.Alike b →
    a.toJson = b.toJson
  | leaf _ held, leaf _ held', _, _, h => Option.some.inj (Option.some.inj (h []))
  | leaf .., container .., _, _, h => nomatch Option.some.inj (h [])
  | container .., leaf .., _, _, h => nomatch Option.some.inj (h [])
  | container n cs, container m ds, ha, hb, h => by
    rw [toJson, toJson]
    refine congrArg Json.object (toJsonChildren_eq_of_alike (ha [] _ get?_nil).1
      (hb [] _ get?_nil).1 h fun name child child' hchild hchild' halike => ?_)
    exact Alike.toJson_eq (ha.of_mem hchild) (hb.of_mem hchild') halike
termination_by a => sizeOf a
decreasing_by
  have hlt := List.sizeOf_lt_of_mem hchild
  simp only [Prod.mk.sizeOf_spec, container.sizeOf_spec] at hlt ⊢
  omega

/-- Alike nodes have nodes on the same paths, each with the same value. -/
theorem Alike.get?_toJson_eq (ha : a.WellFormed) (hb : b.WellFormed) (h : a.Alike b)
    (q : List String) : (a.get? q).map toJson = (b.get? q).map toJson := by
  cases hpart : a.get? q with
  | some part =>
    obtain ⟨part', hpart', halike⟩ := h.of_get? hpart
    rw [hpart', Option.map_some, Option.map_some,
      halike.toJson_eq (ha.of_get? hpart) (hb.of_get? hpart')]
  | none =>
    have hq := h q
    rw [hpart, Option.map_none, eq_comm, Option.map_eq_none_iff] at hq
    rw [hq]

/-! ## Nodes made of the same value -/

/-- What is made of a value is a leaf that holds it, or a container if the value is an object. -/
theorem Holds.leafValue?_cases (h : Holds n v a) :
    (a.leafValue? = some v ∧ ∀ fields, v ≠ .object fields) ∨
      (a.leafValue? = none ∧ ∃ fields, v = .object fields) := by
  obtain ⟨here, h⟩ := h
  rcases ofJson_eq_ok h with ⟨held, rfl, rfl, hv⟩ | ⟨fields, cs, rfl, rfl, -⟩
  · exact .inl ⟨rfl, hv⟩
  · exact .inr ⟨rfl, fields, rfl⟩

/-- What is made of the same value is alike, whatever the revisions. -/
theorem Holds.alike (h : Holds n v a) (h' : Holds m v b) : a.Alike b := by
  intro q
  have hx := h.get? q
  have hy := h'.get? q
  generalize v.part? q = w, a.get? q = x, b.get? q = y at hx hy ⊢
  cases hx with
  | none =>
    cases hy
    rfl
  | some hx =>
    cases hy with
    | some hy =>
      rcases hx.leafValue?_cases with ⟨ha, hw⟩ | ⟨ha, fields, rfl⟩ <;>
        rcases hy.leafValue?_cases with ⟨hb, hw'⟩ | ⟨hb, fields', hfields⟩
      · exact congrArg some (ha.trans hb.symm)
      · exact absurd hfields (hw fields')
      · exact absurd rfl (hw' fields)
      · exact congrArg some (ha.trans hb.symm)

end Switchboard.Node
