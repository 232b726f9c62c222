import Switchboard.Config.Environment
/-!
# Places in a document

The children of a document are the parts one level below it at which a variable may be named: the
items of a sequence, the values of the entries of a mapping, and what stands behind a tag. A part
with the tag of a variable is a reference. All that is in it only tells the variable, so a reference
has no children.

A place is given by the positions of the children on the way to it (`Document.part?`). Places that
are compared as lists of numbers are in the order of the text. A document can get other children in
the place of its own (`Document.withChildren`), and what holds of a document whenever it holds of
its children holds of every document (`Document.children_induction`).
-/

namespace Switchboard.Document

variable {d child inner : Document} {ds : List Document} {place : List Nat} {i : Nat}

/-- The document names a variable. -/
def IsReference (d : Document) : Prop :=
  ∃ inner, d = tagged Environment.tag inner

/-- The parts one level below at which a variable may be named, in the order of the text. -/
def children : Document → List Document
  | tagged name inner => if name = Environment.tag then [] else [inner]
  | sequence items => items
  | mapping entries => entries.map Prod.snd
  | _ => []

/-- The part at a place. -/
def part? : List Nat → Document → Option Document
  | [], d => some d
  | i :: place, d => d.children[i]?.bind (part? place)

/-- No part of the document names a variable. -/
def Resolved (d : Document) : Prop :=
  ∀ place inner, d.part? place ≠ some (tagged Environment.tag inner)

/-- The document with others in the place of its children. -/
def withChildren : Document → List Document → Document
  | tagged name inner, ds => tagged name (ds.headD inner)
  | sequence _, items => sequence items
  | mapping entries, values => mapping ((entries.map Prod.fst).zip values)
  | d, _ => d

/-- The document is null, a truth value, a number or text. -/
def isScalar : Document → Bool
  | null | bool _ | whole .. | real _ | string _ => true
  | sequence _ | mapping _ | tagged .. => false

/-! ## Children -/

theorem isReference_tagged {name : String} :
    (tagged name inner).IsReference ↔ name = Environment.tag := by
  simp [IsReference]

theorem children_reference : (tagged Environment.tag inner).children = [] := by
  rw [children, if_pos rfl]

theorem children_tagged {name : String} (h : name ≠ Environment.tag) :
    (tagged name inner).children = [inner] := by
  rw [children, if_neg h]

theorem not_isReference_of_mem_children (h : child ∈ d.children) : ¬ d.IsReference := by
  rintro ⟨inner, rfl⟩
  rw [children_reference] at h
  cases h

/-- A scalar has no parts. -/
theorem children_of_isScalar (h : d.isScalar = true) : d.children = [] := by
  cases d with
  | sequence | mapping | tagged => cases h
  | null | bool | whole | real | string => rfl

theorem sizeOf_lt_of_mem_children (h : child ∈ d.children) : sizeOf child < sizeOf d := by
  cases d with
  | tagged name inner =>
    rw [children] at h
    split at h
    · cases h
    · rw [List.mem_singleton.1 h, tagged.sizeOf_spec]
      omega
  | sequence items =>
    have hlt := List.sizeOf_lt_of_mem (show child ∈ items from h)
    rw [sequence.sizeOf_spec]
    omega
  | mapping entries =>
    obtain ⟨⟨key, value⟩, hentry, rfl⟩ := List.mem_map.1 h
    have hlt := List.sizeOf_lt_of_mem hentry
    rw [Prod.mk.sizeOf_spec] at hlt
    rw [mapping.sizeOf_spec]
    show sizeOf value < 1 + sizeOf entries
    omega
  | null | bool | whole | real | string => cases h

/-- What holds of a document whenever it holds of its children holds of every document. -/
@[elab_as_elim]
theorem children_induction {motive : Document → Prop}
    (step : ∀ d, (∀ child ∈ d.children, motive child) → motive d) (d : Document) : motive d :=
  step d fun child hchild =>
    have := sizeOf_lt_of_mem_children hchild
    children_induction step child
termination_by sizeOf d

/-! ## Other children -/

/-- A document with its own children is the same. -/
theorem withChildren_children (d : Document) : d.withChildren d.children = d := by
  cases d with
  | tagged name inner =>
    rw [children]
    split <;> rfl
  | mapping entries =>
    rw [children, withChildren, ← List.zip_of_prod rfl rfl]
  | null | bool | whole | real | string | sequence => rfl

/-- As many others become the children. -/
theorem children_withChildren (h : ds.length = d.children.length) :
    (d.withChildren ds).children = ds := by
  cases d with
  | tagged name inner =>
    by_cases hname : name = Environment.tag
    · subst hname
      rw [children_reference] at h
      rw [withChildren, children_reference, List.length_eq_zero_iff.1 h]
    · rw [children_tagged hname] at h
      obtain ⟨d, rfl⟩ := List.length_eq_one_iff.1 h
      exact children_tagged hname
  | sequence => rfl
  | mapping entries =>
    have hlength : ds.length = (entries.map Prod.fst).length := by
      rw [h, children, List.length_map, List.length_map]
    exact List.map_snd_zip (Nat.le_of_eq hlength)
  | null | bool | whole | real | string => exact (List.length_eq_zero_iff.1 h).symm

/-- A document that was given other children is the same again with its own. -/
theorem withChildren_withChildren (h : ds.length = d.children.length) :
    (d.withChildren ds).withChildren d.children = d := by
  cases d with
  | tagged name inner =>
    by_cases hname : name = Environment.tag
    · subst hname
      rw [children_reference] at h ⊢
      rw [List.length_eq_zero_iff.1 h]
      rfl
    · rw [children_tagged hname]
      rfl
  | sequence => rfl
  | mapping entries =>
    have hlength : ds.length = (entries.map Prod.fst).length := by
      rw [h, children, List.length_map, List.length_map]
    rw [withChildren, withChildren, List.map_fst_zip (Nat.le_of_eq hlength.symm), children]
    rw [← List.zip_of_prod rfl rfl]
  | null | bool | whole | real | string => rfl

/-- Other children make no reference of a document. -/
theorem isReference_withChildren (ds : List Document) :
    (d.withChildren ds).IsReference ↔ d.IsReference := by
  cases d with
  | tagged name inner => rw [withChildren, isReference_tagged, isReference_tagged]
  | null | bool | whole | real | string | sequence | mapping => exact iff_of_false nofun nofun

/-! ## Places -/

theorem part?_cons_eq_some_iff {part : Document} :
    d.part? (i :: place) = some part ↔
      ∃ child, d.children[i]? = some child ∧ child.part? place = some part :=
  Option.bind_eq_some_iff

/-- A place in a part is a place in the document. -/
theorem part?_append (front back : List Nat) :
    d.part? (front ++ back) = (d.part? front).bind (part? back) := by
  induction front generalizing d with
  | nil => rfl
  | cons i front ih =>
    rw [List.cons_append, part?, part?, Option.bind_assoc]
    exact Option.bind_congr fun child _ => ih

/-- A reference has no other part than itself. -/
theorem part?_reference_eq_some_iff {part : Document} :
    (tagged Environment.tag inner).part? place = some part ↔
      place = [] ∧ tagged Environment.tag inner = part := by
  cases place with
  | nil => simp [part?]
  | cons i place => simp [part?_cons_eq_some_iff, children_reference]

/-- A document is resolved if it is no reference and its children are resolved. -/
theorem resolved_iff : d.Resolved ↔ ¬ d.IsReference ∧ ∀ child ∈ d.children, child.Resolved := by
  constructor
  · refine fun h => ⟨fun ⟨inner, hinner⟩ => h [] inner (congrArg some hinner), ?_⟩
    intro child hchild place inner hpart
    obtain ⟨i, hi⟩ := List.mem_iff_getElem?.1 hchild
    exact h (i :: place) inner (part?_cons_eq_some_iff.2 ⟨child, hi, hpart⟩)
  · rintro ⟨href, hchildren⟩ (_ | ⟨i, place⟩) inner hpart
    · exact href ⟨inner, Option.some.inj hpart⟩
    · obtain ⟨child, hchild, hpart⟩ := part?_cons_eq_some_iff.1 hpart
      exact hchildren child (List.mem_of_getElem? hchild) place inner hpart

theorem resolved_of_isScalar (h : d.isScalar = true) : d.Resolved := by
  refine resolved_iff.2 ⟨?_, fun child hchild => ?_⟩
  · rintro ⟨inner, rfl⟩
    cases h
  · rw [children_of_isScalar h] at hchild
    cases hchild

end Switchboard.Document
