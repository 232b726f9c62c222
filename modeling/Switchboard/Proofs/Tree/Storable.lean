import Switchboard.Proofs.Tree.Values
/-!
# Values that can be stored

A value can be stored if an address can name every key in it and the items of its arrays have no
parts (`Json.IsStorable`). All that stands against it is listed by `Json.offences`, in the order in
which it is met; a node is made of the value if there is nothing, and else the first offence is
reported (`Node.refusal?_ofJson`).
-/

namespace Switchboard

/-- Why something was refused, if it was. -/
def refusal? {ε α : Type} : Except ε α → Option ε
  | .ok _ => none
  | .error e => some e

section

variable {ε α : Type} {x : Except ε α} {e : ε}

theorem refusal?_eq_some_iff : refusal? x = some e ↔ x = .error e := by
  cases x <;> simp [refusal?]

theorem refusal?_eq_none_iff : refusal? x = none ↔ ∃ a, x = .ok a := by
  cases x <;> simp [refusal?]

end

namespace Json

variable {here : Address} {v : Json} {items : List Json} {fields : List (String × Json)}
  {e : StoreError}

/-- The value has no parts. -/
def isScalar (v : Json) : Bool :=
  (Scalar.ofJson? v).isSome

mutual
/-- An address can name every key in the value, and the items of its arrays have no parts. -/
def IsStorable : Json → Prop
  | .null | .bool _ | .number _ | .string _ => True
  | .array items => ∀ item ∈ items, item.isScalar
  | .object fields => AreStorable fields

/-- `IsStorable` for the fields of an object. -/
def AreStorable : List (String × Json) → Prop
  | [] => True
  | (key, v) :: rest => Node.isAddressable key ∧ IsStorable v ∧ AreStorable rest
end

/-- The items of an array that have parts; the first one has the given position. -/
def itemOffences (here : Address) (index : Nat) : List Json → List StoreError
  | [] => []
  | item :: rest =>
    (if item.isScalar then [] else [.unsupportedValue here.text (.listElement index)]) ++
      itemOffences here (index + 1) rest

mutual
/-- What stands against storing a value at `here`, in the order in which it is met. -/
def offences (here : Address) : Json → List StoreError
  | .null | .bool _ | .number _ | .string _ => []
  | .array items => itemOffences here 0 items
  | .object fields => fieldOffences here fields

/-- `offences` for the fields of an object: a key comes before what is under it. -/
def fieldOffences (here : Address) : List (String × Json) → List StoreError
  | [] => []
  | (key, v) :: rest =>
    (if Node.isAddressable key then [] else [.unsupportedValue here.text (.childName key)]) ++
      offences (here.child key) v ++ fieldOffences here rest
end

/-! ## No offence -/

theorem itemOffences_eq_nil_iff {index : Nat} :
    itemOffences here index items = [] ↔ ∀ item ∈ items, item.isScalar := by
  induction items generalizing index with
  | nil => simp [itemOffences]
  | cons item rest ih => by_cases hitem : item.isScalar <;> simp [itemOffences, hitem, ih]

mutual
/-- A value can be stored if nothing stands against it. -/
theorem offences_eq_nil_iff (here : Address) : ∀ v : Json, v.offences here = [] ↔ v.IsStorable
  | .null | .bool _ | .number _ | .string _ => by simp [offences, IsStorable]
  | .array items => by rw [offences, IsStorable, itemOffences_eq_nil_iff]
  | .object fields => by rw [offences, IsStorable, fieldOffences_eq_nil_iff here fields]

/-- `offences_eq_nil_iff` for the fields of an object. -/
theorem fieldOffences_eq_nil_iff (here : Address) :
    ∀ fields, fieldOffences here fields = [] ↔ AreStorable fields
  | [] => by simp [fieldOffences, AreStorable]
  | (key, v) :: rest => by
    rw [fieldOffences, AreStorable, List.append_eq_nil_iff, List.append_eq_nil_iff,
      offences_eq_nil_iff (here.child key) v, fieldOffences_eq_nil_iff here rest, and_assoc]
    by_cases hkey : Node.isAddressable key <;> simp [hkey]
end

/-! ## What an offence reports -/

theorem exists_of_mem_itemOffences {index : Nat} (h : e ∈ itemOffences here index items) :
    ∃ url offence, e = .unsupportedValue url offence := by
  induction items generalizing index with
  | nil => cases h
  | cons item rest ih =>
    rcases List.mem_append.1 h with h | h
    · split at h
      · cases h
      · exact ⟨_, _, List.mem_singleton.1 h⟩
    · exact ih h

mutual
/-- An offence reports an unsupported value, and nothing else. -/
theorem exists_of_mem_offences : ∀ {v : Json} {here : Address}, e ∈ v.offences here →
    ∃ url offence, e = .unsupportedValue url offence
  | .null, _, h | .bool _, _, h | .number _, _, h | .string _, _, h => by cases h
  | .array _, _, h => exists_of_mem_itemOffences h
  | .object _, _, h => exists_of_mem_fieldOffences h

/-- `exists_of_mem_offences` for the fields of an object. -/
theorem exists_of_mem_fieldOffences : ∀ {fields : List (String × Json)} {here : Address},
    e ∈ fieldOffences here fields → ∃ url offence, e = .unsupportedValue url offence
  | [], _, h => by cases h
  | (key, v) :: rest, here, h => by
    rw [fieldOffences, List.mem_append, List.mem_append] at h
    rcases h with (h | h) | h
    · split at h
      · cases h
      · exact ⟨_, _, List.mem_singleton.1 h⟩
    · exact exists_of_mem_offences h
    · exact exists_of_mem_fieldOffences h
end

end Json

/-! ## Making a node -/

namespace Node

variable {here : Address} {items : List Json}

/-- A list of scalars is refused for the position of its first item that has parts. -/
theorem refusal?_scalars (here : Address) (index : Nat) (items : List Json) :
    (refusal? (scalars index items)).map (.unsupportedValue here.text <| .listElement ·) =
      (Json.itemOffences here index items).head? := by
  induction items generalizing index with
  | nil => rfl
  | cons item rest ih =>
    rw [scalars, Json.itemOffences, Json.isScalar]
    cases Scalar.ofJson? item with
    | none => rfl
    | some s =>
      rw [Option.isSome_some, if_pos rfl, List.nil_append, ← ih]
      cases scalars (index + 1) rest <;> rfl

mutual
/-- A value that cannot be stored is refused for its first offence. -/
theorem refusal?_ofJson (n : Nat) (here : Address) :
    ∀ v : Json, refusal? (ofJson n here v) = (v.offences here).head?
  | .null | .bool _ | .number _ | .string _ => rfl
  | .array items => by
    rw [ofJson, Json.offences, ← refusal?_scalars here 0 items]
    cases scalars 0 items <;> rfl
  | .object fields => by
    rw [ofJson, Json.offences, ← refusal?_ofJsonFields n here fields]
    cases ofJsonFields n here fields <;> rfl

/-- `refusal?_ofJson` for the fields of an object. -/
theorem refusal?_ofJsonFields (n : Nat) (here : Address) :
    ∀ fields, refusal? (ofJsonFields n here fields) = (Json.fieldOffences here fields).head?
  | [] => rfl
  | (key, v) :: rest => by
    rw [ofJsonFields, Json.fieldOffences]
    by_cases hkey : isAddressable key
    · rw [if_pos hkey, if_pos hkey, List.nil_append, List.head?_append,
        ← refusal?_ofJson n (here.child key) v, ← refusal?_ofJsonFields n here rest]
      cases ofJson n (here.child key) v with
      | error e => rfl
      | ok child => cases ofJsonFields n here rest <;> rfl
    · rw [if_neg hkey, if_neg hkey]
      rfl
end

end Node

end Switchboard
