import Switchboard.Json.Parser
import Switchboard.Proofs.Keyed
/-!
# Values with ordered keys

An object is a map: its keys are distinct and ascend, and so are those of the objects in it. Every
value that is read from a text is of that kind (`Json.ordered_of_parse`), in whatever order the text
has the keys and however often.
-/

namespace Switchboard.Json

variable {entries : List (String × Json)} {v : Json}

/-! ## Objects -/

/-- Fields are ordered if the value of each is. -/
theorem orderedFields_iff : OrderedFields entries ↔ ∀ entry ∈ entries, entry.2.Ordered := by
  induction entries with
  | nil => simp [OrderedFields]
  | cons entry rest ih =>
    obtain ⟨k, x⟩ := entry
    simp [OrderedFields, ih]

/-- An object of ordered values is ordered. -/
theorem ordered_ofFields (h : OrderedFields entries) : (ofFields entries).Ordered :=
  ⟨Keyed.ascending_ofList,
    orderedFields_iff.2 fun entry hentry => orderedFields_iff.1 h entry (Keyed.mem_ofList hentry)⟩

/-! ## Reading -/

/-- What follows a step that succeeded. -/
theorem bind_eq_ok {ε α β : Type} {x : Except ε α} {f : α → Except ε β} {b : β}
    (h : (x >>= f) = .ok b) : ∃ a, x = .ok a ∧ f a = .ok b := by
  cases x with
  | error e => cases h
  | ok a => exact ⟨a, rfl, h⟩

/-- A word stands for its value. -/
theorem word_eq_ok {letters cs rest : List Char} {w : Json}
    (h : word v letters cs = .ok (w, rest)) : w = v := by
  induction letters generalizing cs with
  | nil =>
    cases h
    rfl
  | cons c letters ih =>
    cases cs with
    | nil => cases h
    | cons d cs =>
      simp only [word] at h
      split at h
      · exact ih h
      · cases h

/-- With this fuel all three readers make ordered values. -/
structure ReadsOrdered (fuel : Nat) : Prop where
  value : ∀ depth cs v rest, Json.value fuel depth cs = .ok (v, rest) → v.Ordered
  items : ∀ depth cs items rest, Json.items fuel depth cs = .ok (items, rest) → OrderedItems items
  fields : ∀ depth cs entries rest, Json.fields fuel depth cs = .ok (entries, rest) →
    OrderedFields entries

namespace ReadsOrdered

variable {fuel depth : Nat} {cs rest : List Char} {elements : List Json}

/-- A value is ordered if the items and fields that are read with less fuel are. -/
theorem value_succ (h : ReadsOrdered fuel)
    (hread : Json.value (fuel + 1) depth cs = .ok (v, rest)) : v.Ordered := by
  rw [Json.value] at hread
  split at hread
  · cases hread
  · cases word_eq_ok hread
    trivial
  · cases word_eq_ok hread
    trivial
  · cases word_eq_ok hread
    trivial
  · obtain ⟨⟨chars, after⟩, -, hread⟩ := bind_eq_ok hread
    cases hread
    trivial
  -- An array.
  · split at hread
    · cases hread
    · split at hread
      · cases hread
        trivial
      · cases hread
      · obtain ⟨⟨items, after⟩, hitems, hread⟩ := bind_eq_ok hread
        cases hread
        exact h.items _ _ _ _ hitems
  -- An object.
  · split at hread
    · cases hread
    · split at hread
      · cases hread
        exact ⟨.nil, trivial⟩
      · obtain ⟨⟨fields, after⟩, hfields, hread⟩ := bind_eq_ok hread
        cases hread
        exact ordered_ofFields (h.fields _ _ _ _ hfields)
  · obtain ⟨⟨n, after⟩, -, hread⟩ := bind_eq_ok hread
    cases hread
    trivial
  · split at hread
    · obtain ⟨⟨n, after⟩, -, hread⟩ := bind_eq_ok hread
      cases hread
      trivial
    · cases hread

/-- Items are ordered if the first and the others are. -/
theorem items_succ (h : ReadsOrdered fuel)
    (hread : Json.items (fuel + 1) depth cs = .ok (elements, rest)) : OrderedItems elements := by
  rw [Json.items] at hread
  obtain ⟨⟨first, after⟩, hfirst, hread⟩ := bind_eq_ok hread
  have hordered := h.value _ _ _ _ hfirst
  dsimp only at hread
  split at hread
  · cases hread
    exact ⟨hordered, trivial⟩
  · split at hread
    · cases hread
    · cases hread
    · obtain ⟨⟨others, last⟩, hothers, hread⟩ := bind_eq_ok hread
      cases hread
      exact ⟨hordered, h.items _ _ _ _ hothers⟩
  · cases hread

/-- Fields are ordered if the first and the others are. -/
theorem fields_succ (h : ReadsOrdered fuel)
    (hread : Json.fields (fuel + 1) depth cs = .ok (entries, rest)) : OrderedFields entries := by
  unfold Json.fields at hread
  dsimp only at hread
  split at hread
  · obtain ⟨⟨chars, afterKey⟩, -, hread⟩ := bind_eq_ok hread
    dsimp only at hread
    split at hread
    · obtain ⟨⟨first, after⟩, hfirst, hread⟩ := bind_eq_ok hread
      have hordered := h.value _ _ _ _ hfirst
      dsimp only at hread
      split at hread
      · cases hread
        exact ⟨hordered, trivial⟩
      · obtain ⟨⟨others, last⟩, hothers, hread⟩ := bind_eq_ok hread
        cases hread
        exact ⟨hordered, h.fields _ _ _ _ hothers⟩
      · cases hread
    · cases hread
  · cases hread

end ReadsOrdered

/-- The readers make ordered values: each of them passes on less fuel. -/
theorem readsOrdered (fuel : Nat) : ReadsOrdered fuel := by
  induction fuel with
  | zero => exact ⟨nofun, nofun, nofun⟩
  | succ fuel ih =>
    exact {
      value := fun _ _ _ _ => ih.value_succ
      items := fun _ _ _ _ => ih.items_succ
      fields := fun _ _ _ _ => ih.fields_succ }

/-- What is read from a text is ordered. -/
theorem ordered_of_parse {text : String} (h : parse text = .ok v) : v.Ordered := by
  obtain ⟨⟨w, rest⟩, hread, h⟩ := bind_eq_ok h
  have hordered := (readsOrdered _).value _ _ _ _ hread
  dsimp only at h
  split at h
  · cases h
    exact hordered
  · cases h

end Switchboard.Json
