import Switchboard.Proofs.Config.Substitution
/-!
# What takes the place of a variable

The value of a variable is read as a document of its own, whichever document it spells, and is not
looked into again. So what stands in the place of a reference is a scalar exactly if the value
spells one or spells no document (`Document.SpellsScalar`), and a reference is left in the result
exactly if a value brings one (`Environment.load_replaces_references`).

Every part of a replaced document is a part of the document or of a value that was put into it
(`Environment.part?_of_substitute`). This is the converse of the lemma that says what becomes of
each part, and the two together say what is left.
-/

namespace Switchboard

namespace Document

variable {raw : String}

/-- The text spells a scalar, or no document at all. -/
def SpellsScalar (raw : String) : Prop :=
  ∀ d, ofYaml? raw = some d → d.isScalar = true

/-- A value is a scalar if its text spells one or no document. -/
theorem isScalar_ofValue_iff : (ofValue raw).isScalar = true ↔ SpellsScalar raw := by
  rw [ofValue, SpellsScalar]
  cases ofYaml? raw <;> simp [isScalar]

end Document

namespace Environment

open Document

variable {env : Environment} {d out r c : Document} {place : List Nat} {i : Nat} {text : String}

/-- Every text that takes the place of a reference in the document spells a scalar, or no
document. -/
def SuppliesScalars (env : Environment) (d : Document) : Prop :=
  ∀ place inner raw, d.part? place = some (.tagged tag inner) → env.supplied? inner = some raw →
    SpellsScalar raw

/-- No text that takes the place of a reference in the document names a variable itself. -/
def SuppliesResolved (env : Environment) (d : Document) : Prop :=
  ∀ place inner raw, d.part? place = some (.tagged tag inner) → env.supplied? inner = some raw →
    (ofValue raw).Resolved

theorem SuppliesScalars.suppliesResolved (h : env.SuppliesScalars d) : env.SuppliesResolved d :=
  fun place inner raw hpart hraw =>
    resolved_of_isScalar (isScalar_ofValue_iff.2 (h place inner raw hpart hraw))

/-- In a replaced document stands, in the place of a reference, what its text stands for. -/
theorem part?_reference_of_substitute {inner : Document} (h : env.substitute d = .ok out)
    (hpart : d.part? place = some (.tagged tag inner)) :
    ∃ raw, env.supplied? inner = some raw ∧ out.part? place = some (ofValue raw) := by
  obtain ⟨r, hr, hsubstitute⟩ := part?_substitute h hpart
  obtain ⟨raw, hraw, rfl⟩ := substitute_reference_eq_ok_iff.1 hsubstitute
  exact ⟨raw, hraw, hr⟩

/-- A child of a replaced document is what became of the child that was there. -/
theorem child_of_substitute (h : env.substitute d = .ok out) (href : ¬ d.IsReference)
    (hc : out.children[i]? = some c) :
    ∃ child, d.children[i]? = some child ∧ env.substitute child = .ok c := by
  obtain ⟨hlength, hitems⟩ := substituteItems_eq_ok (children_of_substitute h href).1
  have hi : i < d.children.length := hlength ▸ (List.getElem?_eq_some_iff.1 hc).1
  have hchild := List.getElem?_eq_getElem hi
  obtain ⟨c', hc', hsubstitute⟩ := hitems i _ hchild
  cases hc.symm.trans hc'
  exact ⟨_, hchild, hsubstitute⟩

/-- What is no reference does not become one. -/
theorem not_isReference_of_substitute (h : env.substitute d = .ok out) (href : ¬ d.IsReference) :
    ¬ out.IsReference := by
  rw [← (children_of_substitute h href).2, isReference_withChildren]
  exact href

/-- Every part of a replaced document is what became of a part that is no reference, or is part of
what took the place of a reference. -/
theorem part?_of_substitute (h : env.substitute d = .ok out) (hr : out.part? place = some r) :
    (∃ part, d.part? place = some part ∧ ¬ part.IsReference ∧ env.substitute part = .ok r) ∨
    ∃ front back inner raw, place = front ++ back ∧ d.part? front = some (.tagged tag inner) ∧
      env.supplied? inner = some raw ∧ (ofValue raw).part? back = some r := by
  induction d using children_induction generalizing out place with
  | step d ih =>
    by_cases href : d.IsReference
    · obtain ⟨inner, rfl⟩ := href
      obtain ⟨raw, hraw, rfl⟩ := substitute_reference_eq_ok_iff.1 h
      exact .inr ⟨[], place, inner, raw, rfl, rfl, hraw, hr⟩
    · cases place with
      | nil =>
        cases hr
        exact .inl ⟨d, rfl, href, h⟩
      | cons i place =>
        obtain ⟨c, hc, hr⟩ := part?_cons_eq_some_iff.1 hr
        obtain ⟨child, hchild, hsubstitute⟩ := child_of_substitute h href hc
        rcases ih child (List.mem_of_getElem? hchild) hsubstitute hr with
          ⟨part, hpart, hform⟩ | ⟨front, back, inner, raw, rfl, hpart, hvalue⟩
        · exact .inl ⟨part, part?_cons_eq_some_iff.2 ⟨child, hchild, hpart⟩, hform⟩
        · exact .inr ⟨i :: front, back, inner, raw, rfl,
            part?_cons_eq_some_iff.2 ⟨child, hchild, hpart⟩, hvalue⟩

/-- A replaced document names a variable exactly if a text that was put into it does. -/
theorem resolved_iff_of_substitute (h : env.substitute d = .ok out) :
    out.Resolved ↔ env.SuppliesResolved d := by
  constructor
  · intro hresolved place inner raw hpart hraw back inner' hback
    obtain ⟨raw', hraw', hplace⟩ := part?_reference_of_substitute h hpart
    cases hraw.symm.trans hraw'
    exact hresolved (place ++ back) inner' (by rw [part?_append, hplace]; exact hback)
  · intro hsupplies place inner hpart
    rcases part?_of_substitute h hpart with
      ⟨part, -, href, hsubstitute⟩ | ⟨front, back, inner', raw, -, hfront, hraw, hback⟩
    · exact not_isReference_of_substitute hsubstitute href ⟨inner, rfl⟩
    · exact hsupplies front inner' raw hfront hraw back inner hback

theorem load_eq_ok_iff : env.load text = .ok out ↔
    ∃ d, ofYaml? text = some d ∧ env.substitute d = .ok out := by
  rw [load]
  cases ofYaml? text <;> simp

/-- **What takes the place of a variable.** In a configuration that was loaded stands, in the place
of every reference, what the value of the variable or the fallback stands for. These are scalars
exactly if each such text spells a scalar or no document, and then no variable is named any more.
In general none is exactly if none of the texts names one. -/
theorem load_replaces_references (h : env.load text = .ok out) :
    ∃ d, ofYaml? text = some d ∧
      (∀ place inner, d.part? place = some (.tagged tag inner) →
        ∃ raw, env.supplied? inner = some raw ∧ out.part? place = some (ofValue raw)) ∧
      ((∀ place inner, d.part? place = some (.tagged tag inner) →
        ∃ r, out.part? place = some r ∧ r.isScalar = true) ↔ env.SuppliesScalars d) ∧
      (env.SuppliesScalars d → out.Resolved) ∧
      (out.Resolved ↔ env.SuppliesResolved d) := by
  obtain ⟨d, hd, h⟩ := load_eq_ok_iff.1 h
  refine ⟨d, hd, fun place inner => part?_reference_of_substitute h, ⟨?_, ?_⟩,
    fun hscalars => (resolved_iff_of_substitute h).2 hscalars.suppliesResolved,
    resolved_iff_of_substitute h⟩
  · intro hscalars place inner raw hpart hraw
    obtain ⟨raw', hraw', hplace⟩ := part?_reference_of_substitute h hpart
    obtain ⟨r, hr, hscalar⟩ := hscalars place inner hpart
    cases hraw.symm.trans hraw'
    cases hplace.symm.trans hr
    exact isScalar_ofValue_iff.1 hscalar
  · intro hsupplies place inner hpart
    obtain ⟨raw, hraw, hplace⟩ := part?_reference_of_substitute h hpart
    exact ⟨_, hplace, isScalar_ofValue_iff.2 (hsupplies place inner raw hpart hraw)⟩

/-- A variable that is set to a number, and a fallback that is text. -/
theorem port_and_fallback :
    load [("P", "80")] "[!env_var P, !env_var Q on]" =
      .ok (.sequence [.whole 80 (by decide), .string "on"]) ∧
    ∃ d, ofYaml? "[!env_var P, !env_var Q on]" = some d ∧
      d.part? [1] = some (.tagged tag (.string "Q on")) ∧
      (∃ raw, supplied? [("P", "80")] (.string "Q on") = some raw ∧
        (Document.sequence [.whole 80 (by decide), .string "on"]).part? [1] =
          some (ofValue raw)) ∧
      SuppliesScalars [("P", "80")] d ∧
      (Document.sequence [.whole 80 (by decide), .string "on"]).Resolved := by
  have hload : load [("P", "80")] "[!env_var P, !env_var Q on]" =
      .ok (.sequence [.whole 80 (by decide), .string "on"]) := by cbv
  have hyaml : ofYaml? "[!env_var P, !env_var Q on]" =
      some (.sequence [.tagged tag (.string "P"), .tagged tag (.string "Q on")]) := by cbv
  obtain ⟨d, hd, hparts, hscalars, hresolved, -⟩ := load_replaces_references hload
  cases hyaml.symm.trans hd
  have hsupplies : SuppliesScalars [("P", "80")]
      (.sequence [.tagged tag (.string "P"), .tagged tag (.string "Q on")]) := by
    refine hscalars.1 fun place inner hpart => ?_
    cases place with
    | nil => cases hpart
    | cons i place =>
      obtain ⟨child, hchild, hpart⟩ := part?_cons_eq_some_iff.1 hpart
      rcases i with _ | _ | _
      · cases hchild
        obtain ⟨rfl, -⟩ := part?_reference_eq_some_iff.1 hpart
        exact ⟨_, rfl, rfl⟩
      · cases hchild
        obtain ⟨rfl, -⟩ := part?_reference_eq_some_iff.1 hpart
        exact ⟨_, rfl, rfl⟩
      · cases hchild
  exact ⟨hload, _, hd, rfl, hparts [1] _ rfl, hsupplies, hresolved hsupplies⟩

/-- A value may be a list, and it may name a variable itself, of which nothing is looked up. -/
theorem list_in_place_of_variable :
    (ofYaml? "a: !env_var LIST" =
        some (.mapping [(.string "a", .tagged tag (.string "LIST"))]) ∧
      load [("LIST", "[1, 2]")] "a: !env_var LIST" = .ok (.mapping [(.string "a",
        .sequence [.whole 1 (by decide), .whole 2 (by decide)])]) ∧
      (Document.sequence [.whole 1 (by decide), .whole 2 (by decide)]).isScalar = false) ∧
    load [("P", "!env_var B")] "- !env_var P" = .ok (.sequence [.tagged tag (.string "B")]) ∧
    ¬ (Document.sequence [.tagged tag (.string "B")]).Resolved :=
  ⟨⟨by cbv, by cbv, rfl⟩, by cbv, fun hresolved => hresolved [0] _ rfl⟩

end Environment

end Switchboard
