import Mathlib
import Switchboard.Proofs.Config.Places
/-!
# Variables in a document

Substitution replaces the references of a document. What takes the place of a reference is decided
by the environment and by the reference alone (`Environment.supplied?`, `Environment.Fails`). A
document that is no reference keeps its form, and its children are replaced one after the other
(`Environment.substitute_eq`); all that follows rests on this equation and on the induction over
children.

At every place of a document stands, in the result, what becomes of the part at that place
(`Environment.part?_substitute`). So nothing is touched but references, no variable is looked up but
those that they name, and the first reference that cannot be replaced is the one that is reported
(`Environment.substitute_touches_references`).
-/

namespace Switchboard

theorem map_eq_ok_iff {ε α β : Type} {x : Except ε α} {f : α → β} {b : β} :
    x.map f = .ok b ↔ ∃ a, x = .ok a ∧ f a = b := by
  cases x <;> simp [Except.map]

theorem map_eq_error_iff {ε α β : Type} {x : Except ε α} {f : α → β} {e : ε} :
    x.map f = .error e ↔ x = .error e := by
  cases x <;> simp [Except.map]

/-- What the text of a variable stands for: a document if it spells one, and else just text. -/
def Document.ofValue (raw : String) : Document :=
  (ofYaml? raw).getD (.string raw)

namespace Environment

open Document

variable {env env' : Environment} {d inner out part r : Document} {ds rs : List Document}
  {place : List Nat} {e e' : ConfigError}

/-! ## References -/

/-- The text that takes the place of a reference: the value of the variable that it names, or else
the fallback. -/
def supplied? (env : Environment) (inner : Document) : Option String :=
  match inner.untagged with
  | .string text => (env.lookup (specification text).1).or (specification text).2
  | _ => none

/-- A reference in the document names the variable. -/
def Names (d : Document) (name : String) : Prop :=
  ∃ place inner text, d.part? place = some (.tagged tag inner) ∧ inner.untagged = .string text ∧
    (specification text).1 = name

/-- Why nothing can take the place of a reference. -/
inductive Fails (env : Environment) (inner : Document) : ConfigError → Prop
  /-- It is no text. -/
  | noName (h : ∀ text, inner.untagged ≠ .string text) : Fails env inner .variableNameExpected
  /-- The variable is not set, and there is no fallback. -/
  | notSet {text name : String} (h : inner.untagged = .string text)
      (hname : specification text = (name, none)) (hset : env.lookup name = none) :
      Fails env inner (.variableNotSet name)

theorem lookUp_eq (env : Environment) (text : String) : env.lookUp text =
    match (env.lookup (specification text).1).or (specification text).2 with
    | some raw => .ok (ofValue raw)
    | none => .error (.variableNotSet (specification text).1) := rfl

/-- A reference is replaced by what its text stands for. -/
theorem substitute_reference_eq_ok_iff : env.substitute (.tagged tag inner) = .ok r ↔
    ∃ raw, env.supplied? inner = some raw ∧ ofValue raw = r := by
  rw [substitute, if_pos rfl, supplied?]
  cases inner.untagged with
  | string text =>
    dsimp only
    rw [lookUp_eq]
    cases (env.lookup (specification text).1).or (specification text).2 <;> simp
  | null | bool | whole | real | sequence | mapping | tagged => simp

/-- A reference is not replaced if nothing can take its place. -/
theorem substitute_reference_eq_error_iff :
    env.substitute (.tagged tag inner) = .error e ↔ env.Fails inner e := by
  rw [substitute, if_pos rfl]
  constructor
  · intro h
    split at h
    · next text htext =>
      rw [lookUp_eq] at h
      split at h
      · cases h
      · next hnone =>
        cases h
        obtain ⟨hset, hfallback⟩ := Option.or_eq_none_iff.1 hnone
        exact .notSet htext (Prod.ext rfl hfallback) hset
    · next hother =>
      cases h
      exact .noName hother
  · intro h
    cases h with
    | noName h =>
      split
      · next text htext => exact absurd htext (h text)
      · rfl
    | notSet h hname hset =>
      rw [h]
      dsimp only
      rw [lookUp_eq, hname, hset]
      rfl

/-! ## One level -/

/-- The first of several documents is replaced first. -/
theorem substituteItems_cons : env.substituteItems (d :: ds) =
    match env.substitute d with
    | .ok r => (env.substituteItems ds).map (r :: ·)
    | .error e => .error e := by
  rw [substituteItems]
  cases env.substitute d with
  | error e => rfl
  | ok r => cases env.substituteItems ds <;> rfl

/-- The values of entries are replaced as items are, and the keys are kept. -/
theorem substituteEntries_eq (env : Environment) (entries : List (Document × Document)) :
    env.substituteEntries entries =
      (env.substituteItems (entries.map Prod.snd)).map ((entries.map Prod.fst).zip ·) := by
  induction entries with
  | nil => rfl
  | cons entry rest ih =>
    obtain ⟨key, value⟩ := entry
    rw [substituteEntries, List.map_cons, List.map_cons, substituteItems_cons, ih]
    cases env.substitute value with
    | error e => rfl
    | ok r => cases env.substituteItems (rest.map Prod.snd) <;> rfl

/-- A document that is no reference keeps its form, with its children replaced. -/
theorem substitute_eq (h : ¬ d.IsReference) :
    env.substitute d = (env.substituteItems d.children).map d.withChildren := by
  cases d with
  | tagged name inner =>
    have hname : name ≠ tag := isReference_tagged.not.1 h
    rw [substitute, if_neg hname, Document.children_tagged hname, substituteItems_cons]
    cases env.substitute inner <;> rfl
  | sequence items => rfl
  | mapping entries =>
    rw [substitute, substituteEntries_eq]
    cases h : env.substituteItems (entries.map Prod.snd) <;> rw [Document.children, h] <;> rfl
  | null | bool | whole | real | string => rfl

/-- Of several documents that can be replaced each is replaced. -/
theorem substituteItems_eq_ok (h : env.substituteItems ds = .ok rs) : rs.length = ds.length ∧
    ∀ (i : Nat) d, ds[i]? = some d → ∃ r, rs[i]? = some r ∧ env.substitute d = .ok r := by
  induction ds generalizing rs with
  | nil =>
    cases h
    exact ⟨rfl, nofun⟩
  | cons first rest ih =>
    rw [substituteItems_cons] at h
    cases hfirst : env.substitute first with
    | error e =>
      rw [hfirst] at h
      cases h
    | ok r =>
      rw [hfirst] at h
      obtain ⟨rs, hrest, rfl⟩ := map_eq_ok_iff.1 h
      obtain ⟨hlength, hitems⟩ := ih hrest
      refine ⟨by rw [List.length_cons, List.length_cons, hlength], fun i d hd => ?_⟩
      cases i with
      | zero =>
        cases hd
        exact ⟨r, rfl, hfirst⟩
      | succ i => exact hitems i d hd

/-- The children of a replaced document are its children replaced, and its form is kept. -/
theorem children_of_substitute (h : env.substitute d = .ok out) (href : ¬ d.IsReference) :
    env.substituteItems d.children = .ok out.children ∧ d.withChildren out.children = out := by
  rw [substitute_eq href] at h
  obtain ⟨rs, hitems, rfl⟩ := map_eq_ok_iff.1 h
  rw [children_withChildren (substituteItems_eq_ok hitems).1]
  exact ⟨hitems, rfl⟩

/-- Of several documents that cannot be replaced there is a first one that cannot. -/
theorem substituteItems_eq_error (h : env.substituteItems ds = .error e) :
    ∃ (i : Nat) (d : Document), ds[i]? = some d ∧ env.substitute d = .error e ∧
      ∀ j < i, ∀ c, ds[j]? = some c → ∃ r, env.substitute c = .ok r := by
  induction ds with
  | nil => cases h
  | cons first rest ih =>
    rw [substituteItems_cons] at h
    cases hfirst : env.substitute first with
    | error e' =>
      rw [hfirst] at h
      cases h
      exact ⟨0, first, rfl, hfirst, nofun⟩
    | ok r =>
      rw [hfirst] at h
      obtain ⟨i, d, hd, herror, hbefore⟩ := ih (map_eq_error_iff.1 h)
      refine ⟨i + 1, d, hd, herror, fun j hj c hc => ?_⟩
      cases j with
      | zero =>
        cases hc
        exact ⟨r, hfirst⟩
      | succ j => exact hbefore j (Nat.lt_of_succ_lt_succ hj) c hc

/-- Documents are replaced alike if each of them is. -/
theorem substituteItems_congr (h : ∀ d ∈ ds, env.substitute d = env'.substitute d) :
    env.substituteItems ds = env'.substituteItems ds := by
  induction ds with
  | nil => rfl
  | cons first rest ih =>
    rw [substituteItems_cons, substituteItems_cons, h first List.mem_cons_self,
      ih fun d hd => h d (List.mem_cons_of_mem first hd)]

/-- Documents that are replaced by themselves are so together. -/
theorem substituteItems_self (h : ∀ d ∈ ds, env.substitute d = .ok d) :
    env.substituteItems ds = .ok ds := by
  induction ds with
  | nil => rfl
  | cons first rest ih =>
    rw [substituteItems_cons, h first List.mem_cons_self,
      ih fun d hd => h d (List.mem_cons_of_mem first hd)]
    rfl

/-! ## Places -/

/-- What a child names, the document names. -/
theorem Names.of_mem_children {child : Document} {name : String} (hnames : Names child name)
    (h : child ∈ d.children) : Names d name := by
  obtain ⟨place, inner, text, hpart, hinner, hname⟩ := hnames
  obtain ⟨i, hi⟩ := List.mem_iff_getElem?.1 h
  exact ⟨i :: place, inner, text, part?_cons_eq_some_iff.2 ⟨child, hi, hpart⟩, hinner, hname⟩

/-- A replaced document has, at every place of the document, what became of the part there. -/
theorem part?_substitute (h : env.substitute d = .ok out) (hpart : d.part? place = some part) :
    ∃ r, out.part? place = some r ∧ env.substitute part = .ok r := by
  induction place generalizing d out with
  | nil =>
    cases hpart
    exact ⟨out, rfl, h⟩
  | cons i place ih =>
    obtain ⟨child, hchild, hpart⟩ := part?_cons_eq_some_iff.1 hpart
    -- A document with a child is no reference.
    have href := not_isReference_of_mem_children (List.mem_of_getElem? hchild)
    obtain ⟨-, hitems⟩ := substituteItems_eq_ok (children_of_substitute h href).1
    obtain ⟨c, hc, hsubstitute⟩ := hitems i child hchild
    obtain ⟨r, hr, hout⟩ := ih hsubstitute hpart
    exact ⟨r, part?_cons_eq_some_iff.2 ⟨c, hc, hr⟩, hout⟩

/-- In a document that was replaced no reference fails. -/
theorem not_fails_of_substitute (h : env.substitute d = .ok out)
    (hpart : d.part? place = some (.tagged tag inner)) : ¬ env.Fails inner e := by
  intro hfails
  obtain ⟨r, -, hr⟩ := part?_substitute h hpart
  rw [substitute_reference_eq_error_iff.2 hfails] at hr
  cases hr

/-- Environments with the same values for the variables that are named give the same. -/
theorem substitute_congr (h : ∀ name, Names d name → env.lookup name = env'.lookup name) :
    env.substitute d = env'.substitute d := by
  induction d using children_induction with
  | step d ih =>
    by_cases href : d.IsReference
    · obtain ⟨inner, rfl⟩ := href
      rw [substitute, substitute, if_pos rfl, if_pos rfl]
      cases hinner : inner.untagged with
      | string text =>
        dsimp only
        rw [lookUp_eq, lookUp_eq, h _ ⟨[], inner, text, rfl, hinner, rfl⟩]
      | null | bool | whole | real | sequence | mapping | tagged => rfl
    · rw [substitute_eq href, substitute_eq href, substituteItems_congr fun child hchild =>
        ih child hchild fun name hname => h name (hname.of_mem_children hchild)]

/-- Without a reference nothing is replaced. -/
theorem substitute_self (h : d.Resolved) : env.substitute d = .ok d := by
  induction d using children_induction with
  | step d ih =>
    obtain ⟨href, hchildren⟩ := resolved_iff.1 h
    rw [substitute_eq href, substituteItems_self fun child hchild =>
      ih child hchild (hchildren child hchild)]
    exact congrArg Except.ok (withChildren_children d)

/-- A replaced document has as many children, and is the document again with those it had. -/
theorem withChildren_of_substitute (h : env.substitute d = .ok out) (href : ¬ d.IsReference) :
    out.children.length = d.children.length ∧ out.withChildren d.children = d := by
  obtain ⟨hitems, hout⟩ := children_of_substitute h href
  obtain ⟨hlength, -⟩ := substituteItems_eq_ok hitems
  refine ⟨hlength, ?_⟩
  rw [← hout]
  exact withChildren_withChildren hlength

/-! ## The first failure -/

/-- The first reference that fails, in the order of the text, fails with the error. -/
def FailsFirst (env : Environment) (d : Document) (e : ConfigError) : Prop :=
  ∃ place inner, d.part? place = some (.tagged tag inner) ∧ env.Fails inner e ∧
    ∀ earlier < place, ∀ inner' e', d.part? earlier = some (.tagged tag inner') →
      ¬ env.Fails inner' e'

theorem failsFirst_of_substitute (h : env.substitute d = .error e) : env.FailsFirst d e := by
  induction d using children_induction generalizing e with
  | step d ih =>
    by_cases href : d.IsReference
    · obtain ⟨inner, rfl⟩ := href
      exact ⟨[], inner, rfl, substitute_reference_eq_error_iff.1 h,
        fun earlier hearlier => absurd hearlier (List.not_lt_nil earlier)⟩
    · rw [substitute_eq href] at h
      obtain ⟨i, child, hchild, herror, hbefore⟩ := substituteItems_eq_error (map_eq_error_iff.1 h)
      obtain ⟨place, inner, hpart, hfails, hfirst⟩ := ih child (List.mem_of_getElem? hchild) herror
      refine ⟨i :: place, inner, part?_cons_eq_some_iff.2 ⟨child, hchild, hpart⟩, hfails, ?_⟩
      intro earlier hearlier inner' e' hpart'
      cases earlier with
      | nil => exact absurd ⟨inner', Option.some.inj hpart'⟩ href
      | cons j earlier =>
        obtain ⟨child', hchild', hpart'⟩ := part?_cons_eq_some_iff.1 hpart'
        rcases List.cons_lt_cons_iff.1 hearlier with hj | ⟨rfl, hlt⟩
        · obtain ⟨r, hr⟩ := hbefore j hj child' hchild'
          exact not_fails_of_substitute hr hpart'
        · rw [hchild] at hchild'
          cases hchild'
          exact hfirst earlier hlt inner' e' hpart'

/-- Only one error is the first. -/
theorem FailsFirst.unique (h : env.FailsFirst d e) (h' : env.FailsFirst d e') : e = e' := by
  obtain ⟨place, inner, hpart, hfails, hfirst⟩ := h
  obtain ⟨place', inner', hpart', hfails', hfirst'⟩ := h'
  rcases lt_trichotomy place place' with hlt | rfl | hlt
  · exact absurd hfails (hfirst' place hlt inner e hpart)
  · rw [hpart] at hpart'
    cases hpart'
    have herror := substitute_reference_eq_error_iff.2 hfails
    rw [substitute_reference_eq_error_iff.2 hfails'] at herror
    exact (Except.error.inj herror).symm
  · exact absurd hfails' (hfirst place' hlt inner' e' hpart')

theorem substitute_eq_error_iff : env.substitute d = .error e ↔ env.FailsFirst d e := by
  refine ⟨failsFirst_of_substitute, fun hfirst => ?_⟩
  cases h : env.substitute d with
  | ok out =>
    obtain ⟨place, inner, hpart, hfails, -⟩ := hfirst
    exact absurd hfails (not_fails_of_substitute h hpart)
  | error e' => rw [(failsFirst_of_substitute h).unique hfirst]

/-! ## The variables that are asked for -/

theorem askedByItems_eq (ds : List Document) : askedByItems ds = ds.flatMap asked := by
  induction ds with
  | nil => rfl
  | cons first rest ih => rw [askedByItems, ih, List.flatMap_cons]

theorem askedByEntries_eq (entries : List (Document × Document)) :
    askedByEntries entries = (entries.map Prod.snd).flatMap asked := by
  induction entries with
  | nil => rfl
  | cons entry rest ih => rw [askedByEntries, ih, List.map_cons, List.flatMap_cons]

/-- A document that is no reference asks for what its children ask for. -/
theorem asked_eq (h : ¬ d.IsReference) : asked d = d.children.flatMap asked := by
  cases d with
  | tagged name inner =>
    have hname : name ≠ tag := isReference_tagged.not.1 h
    rw [asked, if_neg hname, children_tagged hname, List.flatMap_singleton]
  | sequence items => exact askedByItems_eq items
  | mapping entries => exact askedByEntries_eq entries
  | null | bool | whole | real | string => rfl

/-- The variables that a document asks for are those that its references name. -/
theorem mem_asked_iff {name : String} : name ∈ asked d ↔ Names d name := by
  induction d using children_induction with
  | step d ih =>
    by_cases href : d.IsReference
    · obtain ⟨inner, rfl⟩ := href
      rw [asked, if_pos rfl]
      constructor
      · intro hmem
        split at hmem
        · next text htext => exact ⟨[], inner, text, rfl, htext, (List.mem_singleton.1 hmem).symm⟩
        · cases hmem
      · rintro ⟨place, inner', text, hpart, htext, rfl⟩
        obtain ⟨-, hinner⟩ := part?_reference_eq_some_iff.1 hpart
        cases hinner
        rw [htext]
        exact List.mem_singleton_self _
    · rw [asked_eq href, List.mem_flatMap]
      constructor
      · rintro ⟨child, hchild, hname⟩
        exact ((ih child hchild).1 hname).of_mem_children hchild
      · rintro ⟨_ | ⟨i, place⟩, inner, text, hpart, hname⟩
        · exact absurd ⟨inner, Option.some.inj hpart⟩ href
        · obtain ⟨child, hchild, hpart⟩ := part?_cons_eq_some_iff.1 hpart
          have hmem := List.mem_of_getElem? hchild
          exact ⟨child, hmem, (ih child hmem).2 ⟨place, inner, text, hpart, hname⟩⟩

/-! ## What substitution touches -/

/-- **Substitution touches references alone.** The outcome depends on no variable but those that
references name. A document without a reference is left as it is. The error, if there is one, is
that of the first reference that cannot be replaced. And a part that is no reference keeps its form,
with its keys and its tag, at its place. -/
theorem substitute_touches_references (env : Environment) (d : Document) :
    (∀ env' : Environment, (∀ name, Names d name → env.lookup name = env'.lookup name) →
      env.substitute d = env'.substitute d) ∧
    (d.Resolved → env.substitute d = .ok d) ∧
    (∀ e, env.substitute d = .error e ↔ env.FailsFirst d e) ∧
    ∀ out place part, env.substitute d = .ok out → d.part? place = some part →
      ¬ part.IsReference →
      ∃ r, out.part? place = some r ∧ r.children.length = part.children.length ∧
        r.withChildren part.children = part := by
  refine ⟨fun env' => substitute_congr, substitute_self, fun e => substitute_eq_error_iff, ?_⟩
  intro out place part h hpart href
  obtain ⟨r, hr, hsubstitute⟩ := part?_substitute h hpart
  exact ⟨r, hr, withChildren_of_substitute hsubstitute href⟩

/-- A document that asks for the port alone, in whichever environment; one that asks for nothing,
though a part of it has the name of a variable; and three references of which the second is the
first that fails. -/
theorem port_and_host :
    (∀ name, Names (.mapping [(.string "port", .tagged tag (.string "PORT")),
        (.string "note", .tagged "!of" (.string "HOST"))]) name →
      List.lookup name [("PORT", "80")] = List.lookup name [("HOST", "hub"), ("PORT", "80")]) ∧
    substitute [("PORT", "80")] (.mapping [(.string "port", .tagged tag (.string "PORT")),
        (.string "note", .tagged "!of" (.string "HOST"))]) =
      substitute [("HOST", "hub"), ("PORT", "80")]
        (.mapping [(.string "port", .tagged tag (.string "PORT")),
          (.string "note", .tagged "!of" (.string "HOST"))]) ∧
    (Document.tagged "!of" (.string "HOST")).Resolved ∧
    substitute [("HOST", "hub")] (.tagged "!of" (.string "HOST")) =
      .ok (.tagged "!of" (.string "HOST")) ∧
    substitute [("HOST", "hub")] (.sequence [.tagged tag (.string "HOST"),
      .tagged "!of" (.tagged tag (.string "PORT")), .tagged tag .null]) =
      .error (.variableNotSet "PORT") ∧
    FailsFirst [("HOST", "hub")] (.sequence [.tagged tag (.string "HOST"),
      .tagged "!of" (.tagged tag (.string "PORT")), .tagged tag .null])
      (.variableNotSet "PORT") ∧
    substitute [("HOST", "hub")] (.mapping [(.string "to", .tagged "!of" (.tagged tag
      (.string "HOST")))]) = .ok (.mapping [(.string "to", .tagged "!of" (.string "hub"))]) ∧
    ∃ r, (Document.mapping [(.string "to", .tagged "!of" (.string "hub"))]).part? [0] = some r ∧
      r.children.length = 1 ∧
      r.withChildren [.tagged tag (.string "HOST")] =
        .tagged "!of" (.tagged tag (.string "HOST")) := by
  have hnames : ∀ name, Names (.mapping [(.string "port", .tagged tag (.string "PORT")),
        (.string "note", .tagged "!of" (.string "HOST"))]) name →
      List.lookup name [("PORT", "80")] = List.lookup name [("HOST", "hub"), ("PORT", "80")] := by
    have hasked : asked (.mapping [(.string "port", .tagged tag (.string "PORT")),
        (.string "note", .tagged "!of" (.string "HOST"))]) = ["PORT"] := by cbv
    intro name hname
    have hmem := mem_asked_iff.2 hname
    rw [hasked] at hmem
    rw [List.mem_singleton.1 hmem]
    rfl
  have hresolved : (Document.tagged "!of" (.string "HOST")).Resolved := by
    refine resolved_iff.2 ⟨isReference_tagged.not.2 (by decide), fun child hchild => ?_⟩
    rw [children_tagged (by decide), List.mem_singleton] at hchild
    exact hchild ▸ resolved_of_isScalar rfl
  have herror : substitute [("HOST", "hub")] (.sequence [.tagged tag (.string "HOST"),
      .tagged "!of" (.tagged tag (.string "PORT")), .tagged tag .null]) =
      .error (.variableNotSet "PORT") := by cbv
  have hok : substitute [("HOST", "hub")] (.mapping [(.string "to", .tagged "!of" (.tagged tag
      (.string "HOST")))]) = .ok (.mapping [(.string "to", .tagged "!of" (.string "hub"))]) := by
    cbv
  have hform : ¬ (Document.tagged "!of" (.tagged tag (.string "HOST"))).IsReference :=
    isReference_tagged.not.2 (by decide)
  exact ⟨hnames, (substitute_touches_references _ _).1 _ hnames, hresolved,
    (substitute_touches_references _ _).2.1 hresolved, herror,
    ((substitute_touches_references _ _).2.2.1 _).1 herror, hok,
    (substitute_touches_references _ _).2.2.2 _ [0] _ hok rfl hform⟩

end Environment

end Switchboard
