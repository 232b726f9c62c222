import Switchboard.Condition.Codec
import Switchboard.Proofs.Document
/-!
# Conditions and their values

A condition is read back from its JSON value, whatever its parts and however deep they are nested, if
its tests can be written (`Condition.read?_toJson`): the values to compare with have their keys in
order, as all values that a store hands out, and the thresholds are finite. Tests that were read from
a JSON value can be written (`Condition.canWrite_of_read?`), whichever of its forms the value has.
-/

namespace Switchboard

/-! ## Tests -/

namespace ValueTest

variable {t : ValueTest} {d : Document}

/-- The value to compare with has its keys in order. -/
def HasOrderedValue : ValueTest → Prop
  | equals value => value.Ordered
  | _ => True

/-- The threshold is neither infinite nor no number at all. -/
def HasFiniteThreshold : ValueTest → Prop
  | above threshold | below threshold => ∃ x, threshold = .finite x
  | _ => True

/-- Nothing of the test is lost when it is written. -/
structure CanWrite (t : ValueTest) : Prop where
  value : t.HasOrderedValue
  threshold : t.HasFiniteThreshold

/-- A test is read back. -/
theorem ofDocument?_toJson (h : t.CanWrite) : ofDocument? (.ofJson t.toJson) = some t := by
  cases t with
  | present => rfl
  | equals value =>
    have hvalue : (Document.ofJson value).toJson? = some value := Document.toJson?_ofJson h.value
    exact congrArg (Option.map equals) hvalue
  | above threshold =>
    obtain ⟨x, rfl⟩ := h.threshold
    rfl
  | below threshold =>
    obtain ⟨x, rfl⟩ := h.threshold
    rfl
  | matching pattern => rfl

/-- A test that was read from a JSON value can be written. -/
theorem canWrite_of_ofDocument? (hd : d.IsJson) (h : ofDocument? d = some t) : t.CanWrite := by
  rw [ofDocument?] at h
  obtain ⟨parts, hparts, h⟩ := Option.bind_eq_some_iff.1 h
  obtain ⟨⟨kind, fields⟩, hvariant, h⟩ := Option.bind_eq_some_iff.1 h
  obtain ⟨which, -, h⟩ := Option.bind_eq_some_iff.1 h
  have hfields := ((hd.parts? hparts).variant? hvariant).2
  cases which with
  | present =>
    dsimp only at h
    split at h
    · cases h
      exact ⟨trivial, trivial⟩
    · cases h
  | equals =>
    obtain ⟨v, -, h⟩ := Option.bind_eq_some_iff.1 h
    obtain ⟨value, hvalue, rfl⟩ := Option.map_eq_some_iff.1 h
    exact ⟨Document.ordered_of_toJson? hvalue, trivial⟩
  | above | below =>
    obtain ⟨v, honly, h⟩ := Option.bind_eq_some_iff.1 h
    obtain ⟨threshold, hnumber, rfl⟩ := Option.map_eq_some_iff.1 h
    exact ⟨trivial, Document.finite_of_number? (hfields.only? honly) hnumber⟩
  | matching =>
    obtain ⟨v, -, h⟩ := Option.bind_eq_some_iff.1 h
    obtain ⟨pattern, -, rfl⟩ := Option.map_eq_some_iff.1 h
    exact ⟨trivial, trivial⟩

end ValueTest

/-! ## Conditions -/

namespace Condition

variable {inner : Bool} {c : Condition} {cs : List Condition} {how : Combinator}
  {parts : Parts Reading}

/-- All tests in the condition can be written. -/
def CanWrite (c : Condition) : Prop :=
  ∀ l ∈ c.leaves, l.test.CanWrite

theorem canWrite_leaf {l : LeafCondition} : (leaf l).CanWrite ↔ l.test.CanWrite := by
  simp only [CanWrite, leaves, List.forall_mem_singleton]

/-- The leaves of several conditions are those of each. -/
theorem mem_leavesOf {l : LeafCondition} : l ∈ leavesOf cs ↔ ∃ c ∈ cs, l ∈ c.leaves := by
  induction cs with
  | nil => simp [leavesOf]
  | cons c cs ih => simp [leavesOf, ih]

theorem canWrite_combine : (combine how cs).CanWrite ↔ ∀ c ∈ cs, c.CanWrite := by
  simp only [CanWrite, leaves, mem_leavesOf]
  constructor
  · exact fun h c hc l hl => h l ⟨c, hc, hl⟩
  · rintro h l ⟨c, hc, hl⟩
    exact h c hc l hl

mutual
/-- A condition is read back, on its own and within another one. -/
theorem read?_toJson : ∀ (inner : Bool) {c : Condition}, c.CanWrite →
    read? inner (.ofJson c.toJson) = some c
  | inner, leaf l, h => by
    have htest : ValueTest.ofDocument? (.ofJson l.test.toJson) = some l.test :=
      ValueTest.ofDocument?_toJson (canWrite_leaf.1 h)
    have hread : read? inner (.ofJson (leaf l).toJson) =
        (ValueTest.ofDocument? (.ofJson l.test.toJson)).bind fun test => some (leaf ⟨l.url, test⟩) := by
      rfl
    rw [hread, htest]
    rfl
  | inner, combine how parts, h => by
    have hparts := readAll?_toJsonEach (canWrite_combine.1 h)
    have hread : read? inner (.ofJson (combine how parts).toJson) =
        (readAll? (Document.ofJsonItems (toJsonEach parts))).bind fun cs => some (combine how cs) := by
      cases how <;> rfl
    rw [hread, hparts]
    rfl

/-- `read?_toJson` for several conditions. -/
theorem readAll?_toJsonEach : ∀ {cs : List Condition}, (∀ c ∈ cs, c.CanWrite) →
    readAll? (Document.ofJsonItems (toJsonEach cs)) = some cs
  | [], _ => rfl
  | c :: cs, h => by
    rw [toJsonEach, Document.ofJsonItems, readAll?, read?_toJson true (h c List.mem_cons_self),
      readAll?_toJsonEach fun c hc => h c (List.mem_cons_of_mem _ hc)]
end

/-! ### What a read condition is like -/

/-- The part is a JSON value, and the conditions it lists can be written. -/
def IsReading (reading : Reading) : Prop :=
  reading.1.IsJson ∧ ∀ cs, reading.2 = some cs → ∀ c ∈ cs, c.CanWrite

/-- A condition that was read from such parts can be written. -/
theorem canWrite_of_ofParts? (hparts : parts.All IsReading) (h : ofParts? inner parts = some c) :
    c.CanWrite := by
  rw [ofParts?] at h
  obtain ⟨⟨kind, fields⟩, hvariant, h⟩ := Option.bind_eq_some_iff.1 h
  have hfields := (hparts.variant? hvariant).2
  obtain ⟨which, -, h⟩ := Option.bind_eq_some_iff.1 h
  cases which with
  | some how =>
    obtain ⟨⟨_, conditions⟩, honly, h⟩ := Option.bind_eq_some_iff.1 h
    obtain ⟨cs, rfl, hcs⟩ := Option.bind_eq_some_iff.1 h
    cases hcs
    exact canWrite_combine.2 ((hfields.only? honly).2 cs rfl)
  | none =>
    obtain ⟨values, hrecord, h⟩ := Option.bind_eq_some_iff.1 h
    dsimp only at h
    split at h
    · next url _ test =>
      cases test with
      | none =>
        obtain ⟨test, htest, h⟩ := Option.bind_eq_some_iff.1 h
        obtain ⟨name, -, hleaf⟩ := Option.bind_eq_some_iff.1 h
        cases htest
        cases hleaf
        exact canWrite_leaf.2 ⟨trivial, trivial⟩
      | some reading =>
        obtain ⟨test, htest, h⟩ := Option.bind_eq_some_iff.1 h
        obtain ⟨name, -, hleaf⟩ := Option.bind_eq_some_iff.1 h
        cases hleaf
        have hjson := (hfields.record? hrecord (List.mem_cons_of_mem _ List.mem_cons_self)).1
        exact canWrite_leaf.2 (ValueTest.canWrite_of_ofDocument? hjson htest)
    · cases h

mutual
/-- What a JSON value lists can be written. -/
theorem canWrite_of_readList? : ∀ (v : Json) {cs : List Condition},
    readList? (.ofJson v) = some cs → ∀ c ∈ cs, c.CanWrite
  | .array items, _, h => canWrite_of_readAll? items h
  | .null, _, h | .bool _, _, h | .number (.whole ..), _, h | .number (.double _), _, h
  | .string _, _, h | .object _, _, h => by cases h

/-- A condition that was read from a JSON value can be written. -/
theorem canWrite_of_read? : ∀ (v : Json) {inner : Bool} {c : Condition},
    read? inner (.ofJson v) = some c → c.CanWrite
  | .array items, _, _, h =>
    have hparts : (Parts.listed (readItems (Document.ofJsonItems items))).All IsReading :=
      isReading_of_readItems items
    canWrite_of_ofParts? hparts h
  | .object fields, _, _, h =>
    have hparts : (Parts.keyed (readEntries (Document.ofJsonFields fields))).All IsReading :=
      isReading_of_readEntries fields
    canWrite_of_ofParts? hparts h
  | .null, _, _, h | .bool _, _, _, h | .number (.whole ..), _, _, h | .number (.double _), _, _, h
  | .string _, _, _, h => by cases h

/-- `canWrite_of_read?` for the items of an array. -/
theorem canWrite_of_readAll? : ∀ (items : List Json) {cs : List Condition},
    readAll? (Document.ofJsonItems items) = some cs → ∀ c ∈ cs, c.CanWrite
  | [], _, h => by
    cases h
    nofun
  | v :: vs, _, h => by
    rw [Document.ofJsonItems, readAll?] at h
    split at h
    · next c cs hc hcs =>
      cases h
      exact List.forall_mem_cons.2 ⟨canWrite_of_read? v hc, canWrite_of_readAll? vs hcs⟩
    · cases h

/-- The items of an array, as parts of a condition. -/
theorem isReading_of_readItems : ∀ (items : List Json),
    ∀ reading ∈ readItems (Document.ofJsonItems items), IsReading reading
  | [] => nofun
  | v :: vs => List.forall_mem_cons.2
    ⟨⟨⟨v, rfl⟩, fun _ => canWrite_of_readList? v⟩, isReading_of_readItems vs⟩

/-- The fields of an object, as parts of a condition. -/
theorem isReading_of_readEntries : ∀ (fields : List (String × Json)),
    ∀ entry ∈ readEntries (Document.ofJsonFields fields), IsReading entry.2
  | [] => nofun
  | (_, v) :: rest => List.forall_mem_cons.2
    ⟨⟨⟨v, rfl⟩, fun _ => canWrite_of_readList? v⟩, isReading_of_readEntries rest⟩
end

/-- A condition in a JSON value is read back. -/
theorem ofDocument?_toJson {c : Condition} (h : c.CanWrite) :
    ofDocument? (.ofJson c.toJson) = some c := by
  rw [ofDocument?, if_pos (Document.isPlain_ofJson _), read?_toJson false h]

/-- A condition in a JSON value can be written. -/
theorem canWrite_of_ofDocument? {d : Document} (hd : d.IsJson) {c : Condition}
    (h : ofDocument? d = some c) : c.CanWrite := by
  obtain ⟨v, rfl⟩ := hd
  rw [ofDocument?, if_pos (Document.isPlain_ofJson v)] at h
  exact canWrite_of_read? v h

end Condition

end Switchboard
