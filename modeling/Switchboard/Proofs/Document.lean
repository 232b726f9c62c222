import Switchboard.Document
import Switchboard.Proofs.Json.Doubles
import Switchboard.Proofs.Json.Ordered
/-!
# Documents and JSON values

A JSON value is found again in the document it is read as (`Document.toJson?_ofJson`). Whichever
document a value comes from, the keys of its objects are in order (`Document.ordered_of_toJson?`).
The numbers of a document that is a JSON value are finite (`Document.finite_of_number?`); it has no
tags, and its parts are JSON values too.

What all parts of a record have, its fields have (`Parts.All`), however the record is given.
-/

namespace Switchboard

/-! ## Values in a document -/

mutual
/-- The value of a document is ordered, in whatever order the document has its keys. -/
theorem Document.ordered_of_toJson? : ∀ {d : Document} {v : Json}, d.toJson? = some v → v.Ordered
  | .null, _, h | .bool _, _, h | .whole .., _, h | .string _, _, h => by
    cases h
    trivial
  | .real x, _, h => by
    cases h
    cases x <;> trivial
  | .sequence items, _, h => by
    obtain ⟨values, hvalues, rfl⟩ := Option.map_eq_some_iff.1 h
    exact orderedItems_of_toJsonItems? hvalues
  | .mapping entries, _, h => by
    obtain ⟨fields, hfields, rfl⟩ := Option.map_eq_some_iff.1 h
    exact Json.ordered_ofFields (orderedFields_of_toJsonFields? hfields)
  | .tagged .., _, h => by cases h

/-- `ordered_of_toJson?` for the items of a list. -/
theorem Document.orderedItems_of_toJsonItems? : ∀ {items : List Document} {values : List Json},
    toJsonItems? items = some values → Json.OrderedItems values
  | [], _, h => by
    cases h
    trivial
  | _ :: _, _, h => by
    rw [toJsonItems?] at h
    split at h
    · next hfirst hrest =>
      cases h
      exact ⟨ordered_of_toJson? hfirst, orderedItems_of_toJsonItems? hrest⟩
    · cases h

/-- `ordered_of_toJson?` for the entries of a mapping. -/
theorem Document.orderedFields_of_toJsonFields? : ∀ {entries : List (Document × Document)}
    {fields : List (String × Json)}, toJsonFields? entries = some fields →
    Json.OrderedFields fields
  | [], _, h => by
    cases h
    trivial
  | (_, _) :: _, _, h => by
    rw [toJsonFields?] at h
    split at h
    · next hfirst hrest =>
      cases h
      exact ⟨ordered_of_toJson? hfirst, orderedFields_of_toJsonFields? hrest⟩
    · cases h
end

namespace Document

variable {d : Document}

mutual
/-- A value is found again in its document. -/
theorem toJson?_ofJson : ∀ {v : Json}, v.Ordered → (ofJson v).toJson? = some v
  | .null, _ | .bool _, _ | .number (.whole ..), _ | .number (.double _), _ | .string _, _ => rfl
  | .array items, h => by rw [ofJson, toJson?, toJsonItems?_ofJsonItems h, Option.map_some]
  | .object fields, h => by
    rw [ofJson, toJson?, toJsonFields?_ofJsonFields h.2, Option.map_some, Json.ofFields,
      Keyed.ofList_eq h.1]

/-- `toJson?_ofJson` for the items of an array. -/
theorem toJsonItems?_ofJsonItems : ∀ {items : List Json}, Json.OrderedItems items →
    toJsonItems? (ofJsonItems items) = some items
  | [], _ => rfl
  | _ :: _, h => by
    rw [ofJsonItems, toJsonItems?, toJson?_ofJson h.1, toJsonItems?_ofJsonItems h.2]

/-- `toJson?_ofJson` for the fields of an object. -/
theorem toJsonFields?_ofJsonFields : ∀ {fields : List (String × Json)}, Json.OrderedFields fields →
    toJsonFields? (ofJsonFields fields) = some fields
  | [], _ => rfl
  | (key, _) :: _, h => by
    rw [ofJsonFields, toJsonFields?, toJson?_ofJson h.1, toJsonFields?_ofJsonFields h.2]
    rfl
end

mutual
/-- A JSON value has no tags. -/
theorem isPlain_ofJson : ∀ v : Json, (ofJson v).isPlain = true
  | .null | .bool _ | .number (.whole ..) | .number (.double _) | .string _ => rfl
  | .array items => isPlainItems_ofJsonItems items
  | .object fields => isPlainEntries_ofJsonFields fields

/-- `isPlain_ofJson` for the items of an array. -/
theorem isPlainItems_ofJsonItems : ∀ items : List Json, isPlainItems (ofJsonItems items) = true
  | [] => rfl
  | x :: xs => by rw [ofJsonItems, isPlainItems, isPlain_ofJson x, isPlainItems_ofJsonItems xs]; rfl

/-- `isPlain_ofJson` for the fields of an object. -/
theorem isPlainEntries_ofJsonFields :
    ∀ fields : List (String × Json), isPlainEntries (ofJsonFields fields) = true
  | [] => rfl
  | (_, x) :: xs => by
    rw [ofJsonFields, isPlainEntries, isPlain_ofJson x, isPlainEntries_ofJsonFields xs]
    rfl
end

/-- A count is read back. -/
theorem count?_ofCount (n : UInt64) : (ofJson (.ofCount n)).count? = some n := by
  simp only [Json.ofCount, JsonNumber.ofCount, ofJson, count?]
  rw [if_pos (Int.natCast_nonneg _), Int.toNat_natCast, UInt64.ofNat_toNat]

/-- The document stands for a JSON value. -/
def IsJson (d : Document) : Prop :=
  ∃ v, d = ofJson v

/-- The whole numbers that are kept exactly are small against the doubles. -/
theorem finite_ofInt {i : Int} (hi : InWordRange i) : ∃ x, Extended.ofInt i = .finite x := by
  obtain ⟨k, -, hone, hlimit⟩ := Json.exists_one
  have hsize : i.natAbs ≤ 2 ^ 64 := by
    obtain ⟨hlow, hhigh⟩ := hi
    omega
  have hbound : Double.Representable (2 ^ (64 + k)) := by
    refine ⟨Double.two_pow_mod_spacing _, ?_⟩
    rw [hlimit]
    exact Nat.pow_lt_pow_right (by decide) (by omega)
  have hunits : i.natAbs * Double.one ≤ 2 ^ (64 + k) * 1 := by
    rw [hone, Nat.mul_one, Nat.pow_add]
    exact Nat.mul_le_mul_right _ hsize
  rw [Extended.ofInt, Extended.ofRatio, dif_pos (Json.representable_nearest Nat.one_pos hbound hunits)]
  exact ⟨_, rfl⟩

/-- The numbers of a JSON value are finite. -/
theorem finite_of_number? {x : Extended} (hd : d.IsJson) (h : d.number? = some x) :
    ∃ y, x = .finite y := by
  obtain ⟨v, rfl⟩ := hd
  cases v with
  | number n =>
    cases n with
    | whole i hi =>
      cases h
      exact finite_ofInt hi
    | double y =>
      cases h
      exact ⟨y, rfl⟩
  | null | bool _ | string _ | array _ | object _ => cases h

/-- The items of an array are JSON values. -/
theorem isJson_of_mem_ofJsonItems : ∀ {items : List Json}, d ∈ ofJsonItems items → d.IsJson
  | x :: xs, h => by
    rcases List.mem_cons.1 h with rfl | h
    · exact ⟨x, rfl⟩
    · exact isJson_of_mem_ofJsonItems h

/-- The values of an object are JSON values. -/
theorem isJson_of_mem_ofJsonFields {entry : Document × Document} :
    ∀ {fields : List (String × Json)}, entry ∈ ofJsonFields fields → entry.2.IsJson
  | (_, x) :: xs, h => by
    rcases List.mem_cons.1 h with rfl | h
    · exact ⟨x, rfl⟩
    · exact isJson_of_mem_ofJsonFields h

end Document

/-! ## The parts of a record -/

namespace Parts

variable {α : Type} {p : α → Prop} {parts fields : Parts α} {names : List String} {tag name : String}
  {kind value : α}

/-- All parts have the property. -/
def All (p : α → Prop) : Parts α → Prop
  | keyed entries => ∀ entry ∈ entries, p entry.2
  | listed items => ∀ item ∈ items, p item

/-- What is placed was in its slot before, or is the value of an entry. -/
theorem mem_of_place {entries : List (Document × α)} {slots slots' : List (Option α)}
    (h : place names entries slots = some slots') (hvalue : some value ∈ slots') :
    some value ∈ slots ∨ ∃ key, (key, value) ∈ entries := by
  induction entries generalizing slots with
  | nil =>
    cases h
    exact .inl hvalue
  | cons entry rest ih =>
    obtain ⟨key, first⟩ := entry
    rw [place] at h
    have hbehind : (∃ key, (key, value) ∈ rest) → ∃ key', (key', value) ∈ (key, first) :: rest :=
      fun ⟨key', hkey'⟩ => ⟨key', List.mem_cons_of_mem _ hkey'⟩
    split at h
    · cases h
    · exact (ih h).imp_right hbehind
    · split at h
      · rcases ih h with hslot | hrest
        · rcases List.mem_or_eq_of_mem_set hslot with hslot | heq
          · exact .inl hslot
          · cases heq
            exact .inr ⟨key, List.mem_cons_self⟩
        · exact .inr (hbehind hrest)
      · cases h

/-- The values of the fields are among the parts. -/
theorem All.record? {values : List (Option α)} (h : parts.All p)
    (hrecord : parts.record? names = some values) (hvalue : some value ∈ values) : p value := by
  cases parts with
  | keyed entries =>
    rcases mem_of_place hrecord hvalue with hslot | ⟨key, hentry⟩
    · simp at hslot
    · exact h _ hentry
  | listed items =>
    rw [Parts.record?] at hrecord
    split at hrecord
    · cases hrecord
      simp at hvalue
      exact h _ hvalue
    · cases hrecord

/-- The value of the only field is among the parts. -/
theorem All.only? (h : parts.All p) (honly : parts.only? name = some value) : p value := by
  rw [Parts.only?] at honly
  split at honly
  · next hrecord =>
    cases honly
    exact h.record? hrecord List.mem_cons_self
  · cases honly

/-- The kind of a record and the parts of its fields are among the parts. -/
theorem All.variant? (h : parts.All p) (hvariant : parts.variant? tag = some (kind, fields)) :
    p kind ∧ fields.All p := by
  cases parts with
  | keyed entries =>
    rw [Parts.variant?, List.partition_eq_filter_filter] at hvariant
    split at hvariant
    · next key first rest heq =>
      cases hvariant
      obtain ⟨hkind, rfl⟩ := Prod.mk.inj heq
      refine ⟨h (key, kind) (List.mem_of_mem_filter (hkind ▸ List.mem_cons_self)), ?_⟩
      exact fun entry hentry => h entry (List.mem_of_mem_filter hentry)
    · cases hvariant
  | listed items =>
    cases items with
    | nil => cases hvariant
    | cons first rest =>
      cases hvariant
      exact ⟨h _ List.mem_cons_self, fun item hitem => h _ (List.mem_cons_of_mem _ hitem)⟩

end Parts

/-- The parts of a JSON value are JSON values. -/
theorem Document.IsJson.parts? {d : Document} {parts : Parts Document} (hd : d.IsJson)
    (h : d.parts? = some parts) : parts.All IsJson := by
  obtain ⟨v, rfl⟩ := hd
  cases v with
  | array items =>
    cases h
    exact fun _ => isJson_of_mem_ofJsonItems
  | object fields =>
    cases h
    exact fun _ => isJson_of_mem_ofJsonFields
  | number n => cases n <;> cases h
  | null | bool _ | string _ => cases h

end Switchboard
