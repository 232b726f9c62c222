import Switchboard.Config.Basic
import Switchboard.Proofs.Document
/-!
# What an accepted configuration promises

A document is accepted as a configuration if it has the form of one, its scheme can stand in an
address and no two of its rules have the same name. All that sets up a hub relies on this
(`Config.isValid_of_document`).
-/

namespace Switchboard

namespace Config

variable {c c' : Config} {d : Document} {v : Json}

/-- What a hub relies on when it is set up. -/
structure IsValid (c : Config) : Prop where
  scheme_ne : c.scheme ≠ ""
  scheme_slash : '/' ∉ c.scheme.toList
  scheme_colon : ':' ∉ c.scheme.toList
  /-- Rules are told apart by their names. -/
  names : (c.rules.map Rule.name).Nodup
  /-- What the store holds at the start has its keys in order. -/
  initial : ∀ v, c.initial = some v → v.Ordered

/-! ## Reading -/

/-- A field has a value of its own, or the one that holds if it is left out. -/
theorem field_eq_some {α : Type} {fields : List (String × Document)} {name : String}
    {read? : Document → Option α} {otherwise : Option α} {x : α}
    (h : field fields name read? otherwise = some x) :
    otherwise = some x ∨ ∃ value, read? value = some x := by
  unfold field at h
  split at h
  · exact .inl h
  · exact .inr ⟨_, h⟩
  · cases h

/-- What is to be written at the start is ordered. -/
theorem ordered_of_initial? (h : initial? d = some (some v)) : v.Ordered := by
  unfold initial? at h
  split at h
  · cases h
  · obtain ⟨w, hw, heq⟩ := Option.map_eq_some_iff.1 h
    cases heq
    exact Document.ordered_of_toJson? hw

/-- A configuration that was read from a record has an ordered value to write at the start, or
none. -/
theorem ordered_of_ofRecord? (h : ofRecord? d = some c) (hv : c.initial = some v) : v.Ordered := by
  simp only [ofRecord?, Option.bind_eq_bind, Option.bind_eq_some_iff, Option.pure_def,
    Option.some.injEq] at h
  obtain ⟨_, -, _, -, _, -, _, -, initial, hinitial, _, -, _, -, _, -, rfl⟩ := h
  cases hv
  rcases field_eq_some hinitial with hnone | ⟨value, hvalue⟩
  · cases hnone
  · exact ordered_of_initial? hvalue

/-! ## Checking -/

/-- What is said of a scheme that can stand in an address. -/
theorem isScheme_iff {scheme : String} :
    isScheme scheme = true ↔ scheme ≠ "" ∧ '/' ∉ scheme.toList ∧ ':' ∉ scheme.toList := by
  have hany : (scheme.toList.any fun c => c = '/' || c = ':') = false ↔
      '/' ∉ scheme.toList ∧ ':' ∉ scheme.toList := by
    rw [List.any_eq_false]
    constructor
    · exact fun h => ⟨fun hmem => h _ hmem rfl, fun hmem => h _ hmem rfl⟩
    · rintro ⟨hslash, hcolon⟩ c hc heq
      rcases Bool.or_eq_true_iff.1 heq with heq | heq <;> cases of_decide_eq_true heq
      · exact hslash hc
      · exact hcolon hc
  rw [isScheme, Bool.and_eq_true, Bool.not_eq_true', decide_eq_true_iff, hany]

/-- No name is repeated if all are different, and none of them was used before. -/
theorem firstRepeated?_eq_none_iff {seen names : List String} :
    firstRepeated? seen names = none ↔ names.Nodup ∧ ∀ name ∈ names, name ∉ seen := by
  induction names generalizing seen with
  | nil => simp [firstRepeated?]
  | cons name rest ih =>
    rw [firstRepeated?, List.nodup_cons, List.forall_mem_cons]
    by_cases hseen : seen.contains name
    · simp [List.contains_iff_mem.1 hseen]
    · have hnot : name ∉ seen := fun hmem => hseen (List.contains_iff_mem.2 hmem)
      rw [if_neg hseen, ih]
      constructor
      · rintro ⟨hnodup, hrest⟩
        exact ⟨⟨fun hmem => hrest name hmem List.mem_cons_self, hnodup⟩, hnot,
          fun other hother hmem => hrest other hother (List.mem_cons_of_mem _ hmem)⟩
      · rintro ⟨⟨hname, hnodup⟩, -, hrest⟩
        refine ⟨hnodup, fun other hother hmem => ?_⟩
        rcases List.mem_cons.1 hmem with rfl | hmem
        · exact hname hother
        · exact hrest other hother hmem

/-- A configuration passes the check as it is, if its scheme can stand in an address and its rules
have different names. -/
theorem check_eq_ok_iff : c.check = .ok c' ↔
    c' = c ∧ isScheme c.scheme = true ∧ (c.rules.map Rule.name).Nodup := by
  have hnames := @firstRepeated?_eq_none_iff [] (c.rules.map Rule.name)
  simp only [List.not_mem_nil, not_false_eq_true, implies_true, and_true] at hnames
  rw [check, ← hnames]
  by_cases hscheme : isScheme c.scheme
  · rw [if_pos hscheme]
    cases firstRepeated? [] (c.rules.map Rule.name) with
    | none => simp [hscheme, eq_comm]
    | some name => simp
  · simp [hscheme]

/-- An accepted configuration has all that a hub relies on. -/
theorem isValid_of_document (h : ofDocument d = .ok c) : c.IsValid := by
  unfold ofDocument at h
  split at h
  · cases h
    obtain ⟨hne, hslash, hcolon⟩ := isScheme_iff.1 (by decide : isScheme standard.scheme = true)
    exact ⟨hne, hslash, hcolon, .nil, nofun⟩
  · split at h
    · next record hrecord =>
      obtain ⟨rfl, hscheme, hnames⟩ := check_eq_ok_iff.1 h
      obtain ⟨hne, hslash, hcolon⟩ := isScheme_iff.1 hscheme
      exact ⟨hne, hslash, hcolon, hnames, fun v hv => ordered_of_ofRecord? hrecord hv⟩
    · cases h

end Config

end Switchboard
