import Switchboard.Proofs.Tree.Paths
/-!
# Values as trees

A value that fits into a tree becomes a node whose parts are its parts: `Json.part?` follows a path
of keys through a value as `Node.get?` follows a path of names through a tree, and the two see the
same parts (`Holds.get?`). Every part of the node carries the revision of the write
(`Holds.revision_eq`), holds its children in order under names that an address can name
(`Holds.wellFormed`), and is read back as the value that it was made of (`Holds.toJson_eq`).
-/

namespace Switchboard

/-- The value at the end of a path of keys through a value. -/
def Json.part? : List String → Json → Option Json
  | [], v => some v
  | key :: rest, .object fields => (fields.lookup key).bind (part? rest)
  | _ :: _, _ => none

namespace Json

variable {v w : Json} {key : String} {path : List String} {fields : List (String × Json)}

/-- The value of a field of an ordered object is ordered. -/
theorem OrderedFields.lookup (h : OrderedFields fields) (hl : fields.lookup key = some v) :
    v.Ordered := by
  induction fields with
  | nil => cases hl
  | cons field rest ih =>
    obtain ⟨k, x⟩ := field
    rw [List.lookup_cons] at hl
    split at hl
    · cases hl
      exact h.1
    · exact ih h.2 hl

/-- The parts of an ordered value are ordered. -/
theorem Ordered.part? (h : v.Ordered) (hp : v.part? path = some w) : w.Ordered := by
  induction path generalizing v with
  | nil =>
    cases hp
    exact h
  | cons key rest ih =>
    cases v with
    | object fields =>
      obtain ⟨x, hx, hw⟩ := Option.bind_eq_some_iff.1 hp
      exact ih (OrderedFields.lookup h.2 hx) hw
    | null | bool | number | string | array => cases hp

end Json

/-- A value that is a scalar is read back as it was. -/
theorem Scalar.toJson_of_ofJson? {v : Json} {s : Scalar} (h : Scalar.ofJson? v = some s) :
    s.toJson = v := by
  cases v <;> cases h <;> rfl

namespace Node

variable {n : Nat} {here : Address} {v w : Json} {node part child : Node} {k : String}
  {path : List String} {fields : List (String × Json)} {cs : List (String × Node)}

/-! ## What is made of a value -/

/-- The items of a list of scalars are read back as they were. -/
theorem map_toJson_of_scalars {index : Nat} {items : List Json} {held : List Scalar}
    (h : scalars index items = .ok held) : held.map Scalar.toJson = items := by
  induction items generalizing index held with
  | nil =>
    cases h
    rfl
  | cons item rest ih =>
    simp only [scalars] at h
    split at h
    · cases h
    · next s hs =>
      cases hr : scalars (index + 1) rest with
      | error => rw [hr] at h; cases h
      | ok others =>
        rw [hr] at h
        cases h
        rw [List.map_cons, ih hr, Scalar.toJson_of_ofJson? hs]

/-- A node made of a value is a leaf that is read back as the value, or a container of the nodes
made of the value's fields. -/
theorem ofJson_eq_ok (h : ofJson n here v = .ok node) :
    (∃ held, node = leaf n held ∧ held.toJson = v ∧ ∀ fields, v ≠ .object fields) ∨
    (∃ fields cs, v = .object fields ∧ node = container n cs ∧
      ofJsonFields n here fields = .ok cs) := by
  cases v with
  | null | bool | number | string =>
    cases h
    exact .inl ⟨_, rfl, rfl, nofun⟩
  | array items =>
    simp only [ofJson] at h
    split at h
    · next held hs =>
      cases h
      exact .inl ⟨_, rfl, congrArg Json.array (map_toJson_of_scalars hs), nofun⟩
    · cases h
  | object fields =>
    simp only [ofJson] at h
    split at h
    · next cs hcs =>
      cases h
      exact .inr ⟨fields, cs, rfl, rfl, hcs⟩
    · cases h

/-- The children made of the fields of an object: the first field's key can be named, and its
child joins those of the other fields. -/
theorem ofJsonFields_cons_eq_ok (h : ofJsonFields n here ((k, v) :: fields) = .ok cs) :
    isAddressable k = true ∧ ∃ child others, ofJson n (here.child k) v = .ok child ∧
      ofJsonFields n here fields = .ok others ∧ cs = Keyed.insert k child others := by
  simp only [ofJsonFields] at h
  split at h
  · next hk =>
    split at h
    · cases h
    · next child hchild =>
      split at h
      · cases h
      · next others hothers =>
        cases h
        exact ⟨hk, child, others, hchild, hothers, rfl⟩
  · cases h

/-- The node is made of the value, with revision `n`. -/
def Holds (n : Nat) (v : Json) (node : Node) : Prop :=
  ∃ here, ofJson n here v = .ok node

/-- The children under a key are made of the field under that key. -/
theorem lookup_ofJsonFields (h : ofJsonFields n here fields = .ok cs) :
    Option.Rel (Holds n) (fields.lookup k) (cs.lookup k) := by
  induction fields generalizing cs with
  | nil =>
    cases h
    exact .none
  | cons field rest ih =>
    obtain ⟨key, v⟩ := field
    obtain ⟨-, child, others, hchild, hothers, rfl⟩ := ofJsonFields_cons_eq_ok h
    by_cases hk : k = key
    · subst hk
      rw [List.lookup_cons_self, Keyed.lookup_insert_self]
      exact .some ⟨_, hchild⟩
    · rw [List.lookup_cons, beq_false_of_ne hk, Keyed.lookup_insert_of_ne hk]
      exact ih hothers

/-- The keys of the children are the keys of the fields. -/
theorem mem_keys_ofJsonFields (h : ofJsonFields n here fields = .ok cs) :
    k ∈ cs.map Prod.fst ↔ k ∈ fields.map Prod.fst := by
  rw [Keyed.mem_keys_iff, Keyed.mem_keys_iff]
  generalize fields.lookup k = x, cs.lookup k = y, lookup_ofJsonFields (k := k) h = hr
  cases hr <;> simp

/-- The children made of the fields of an object are in order, under names that an address can
name. -/
theorem ofJsonFields_wellFormed (h : ofJsonFields n here fields = .ok cs) :
    Keyed.Ascending cs ∧ ∀ k ∈ cs.map Prod.fst, isAddressable k = true := by
  induction fields generalizing cs with
  | nil =>
    cases h
    exact ⟨.nil, nofun⟩
  | cons field rest ih =>
    obtain ⟨key, v⟩ := field
    obtain ⟨hkey, child, others, -, hothers, rfl⟩ := ofJsonFields_cons_eq_ok h
    obtain ⟨hasc, hnames⟩ := ih hothers
    refine ⟨hasc.insert, fun k hk => ?_⟩
    rcases Keyed.mem_keys_insert.1 hk with rfl | hk
    · exact hkey
    · exact hnames k hk

mutual
/-- The node made of an ordered value is read back as that value. -/
theorem toJson_of_ofJson : ∀ {v : Json} {here : Address} {node : Node}, v.Ordered →
    ofJson n here v = .ok node → node.toJson = v
  | .null, _, _, _, h | .bool _, _, _, _, h | .number _, _, _, _, h | .string _, _, _, _, h => by
    cases h; rfl
  | .array items, here, node, _, h => by
    rcases ofJson_eq_ok h with ⟨held, rfl, hheld, -⟩ | ⟨_, _, hv, -⟩
    · exact hheld
    · cases hv
  | .object fields, here, node, hv, h => by
    simp only [ofJson] at h
    split at h
    · next cs hcs =>
      cases h
      exact congrArg Json.object (toJsonChildren_of_ofJsonFields hv.1 hv.2 hcs)
    · cases h

/-- The children made of ordered fields are read back as those fields. -/
theorem toJsonChildren_of_ofJsonFields : ∀ {fields : List (String × Json)} {here : Address}
    {cs : List (String × Node)}, Keyed.Ascending fields → Json.OrderedFields fields →
    ofJsonFields n here fields = .ok cs → toJsonChildren cs = fields
  | [], _, _, _, _, h => by cases h; rfl
  | (k, v) :: rest, here, cs, hasc, hv, h => by
    obtain ⟨-, child, others, hchild, hothers, rfl⟩ := ofJsonFields_cons_eq_ok h
    obtain ⟨hk, hrest⟩ := Keyed.ascending_cons.1 hasc
    -- In an ordered object the first key is the least, so that its child comes first as well.
    rw [Keyed.insert_of_lt fun l hl => hk l ((mem_keys_ofJsonFields hothers).1 hl), toJsonChildren,
      toJson_of_ofJson hv.1 hchild, toJsonChildren_of_ofJsonFields hrest hv.2 hothers]
end

namespace Holds

/-- A node made of a value has the revision that it was made with. -/
theorem revision_eq (h : Holds n v node) : node.revision = n := by
  obtain ⟨here, h⟩ := h
  rcases ofJson_eq_ok h with ⟨held, rfl, -⟩ | ⟨fields, cs, -, rfl, -⟩ <;> rfl

/-- A node made of an ordered value is read back as that value. -/
theorem toJson_eq (h : Holds n v node) (hv : v.Ordered) : node.toJson = v :=
  h.elim fun _ h => toJson_of_ofJson hv h

/-- A node made of a value has its children in order, under names that an address can name. -/
theorem children_wellFormed (h : Holds n v node) :
    Keyed.Ascending node.children ∧ ∀ k ∈ node.children.map Prod.fst, isAddressable k = true := by
  obtain ⟨here, h⟩ := h
  rcases ofJson_eq_ok h with ⟨held, rfl, -⟩ | ⟨fields, cs, -, rfl, hcs⟩
  · exact ⟨.nil, nofun⟩
  · exact ofJsonFields_wellFormed hcs

/-- The parts of a node made of a value are made of the parts of the value. -/
theorem get? (h : Holds n v node) (path : List String) :
    Option.Rel (Holds n) (v.part? path) (node.get? path) := by
  induction path generalizing v node with
  | nil => exact .some h
  | cons k rest ih =>
    obtain ⟨here, h⟩ := h
    rw [get?_cons]
    rcases ofJson_eq_ok h with ⟨held, rfl, -, hv⟩ | ⟨fields, cs, rfl, rfl, hcs⟩
    · cases v with
      | object fields => exact absurd rfl (hv fields)
      | null | bool | number | string | array => exact .none
    · rw [Json.part?, children_container]
      generalize fields.lookup k = x, cs.lookup k = y, lookup_ofJsonFields (k := k) hcs = hr
      cases hr with
      | none => exact .none
      | some hchild => exact ih hchild

/-- A part of a node made of a value is made of a part of the value. -/
theorem of_get? (h : Holds n v node) (hp : node.get? path = some part) :
    ∃ w, v.part? path = some w ∧ Holds n w part := by
  have hr := h.get? path
  rw [hp] at hr
  generalize v.part? path = x at hr
  cases hr with
  | some hw => exact ⟨_, rfl, hw⟩

end Holds

end Node

end Switchboard
