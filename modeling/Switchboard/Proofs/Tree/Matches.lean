import Switchboard.Tree.Query
import Switchboard.Proofs.Tree.Names
/-!
# What a query finds

A query finds the nodes on the paths that fit its pattern (`Tree.mem_expand_iff`), each under a key
of its own (`Tree.path_eq_of_resultKey_eq`) from which it can be read (`Tree.mem_expand`). The walk
over the tree and the look-up of a single node agree (`Tree.select_eq_expand`).

A write touches a query if its target is related to a path that fits and has a node
(`Tree.Touches`). It leaves its own revision on all that it changes, so the addresses and revisions
that a query finds change exactly then, and if they do not, neither do the entries
(`Tree.Renewed.expand_eq_of_revisions_eq`). This is what lets a watch compare revisions alone.
-/

namespace Switchboard

/-- The path has the length of the pattern and agrees with it in every segment that is not a
wildcard. -/
def Fits : List String → List String → Prop
  | [], [] => True
  | segment :: pattern, name :: path =>
    (segment = Address.wildcard ∨ segment = name) ∧ Fits pattern path
  | _, _ => False

/-- Without a wildcard in the pattern only the path that it spells fits. -/
theorem fits_iff_eq {pattern q : List String} (h : Address.wildcard ∉ pattern) :
    Fits pattern q ↔ q = pattern := by
  induction pattern generalizing q with
  | nil => cases q <;> simp [Fits]
  | cons segment pattern ih =>
    rw [List.mem_cons, not_or] at h
    cases q with
    | nil => simp [Fits]
    | cons name path =>
      rw [Fits, ih h.2, or_iff_right (Ne.symm h.1), List.cons.injEq, eq_comm]

namespace Node

variable {node part child : Node} {pattern q : List String} {segment name : String}
  {cs : List (String × Node)}

/-- The children that a segment matches. -/
theorem mem_matching_iff :
    (name, child) ∈ matching segment cs ↔
      (segment = Address.wildcard ∨ segment = name) ∧ (name, child) ∈ cs := by
  unfold matching
  split
  · next h => simp [h]
  · next h => simp [h, eq_comm, and_comm]

/-- The nodes that a pattern selects are those on the paths that fit it. -/
theorem mem_select_iff (h : node.WellFormed) :
    (q, part) ∈ node.select pattern ↔ Fits pattern q ∧ node.get? q = some part := by
  induction pattern generalizing node q with
  | nil =>
    cases q with
    | nil => simp [select, Fits, eq_comm]
    | cons => simp [select, Fits]
  | cons segment pattern ih =>
    cases node with
    | leaf =>
      cases q with
      | nil => simp [select, Fits]
      | cons => simp [select, get?_cons]
    | container revision cs =>
      have hasc : Keyed.Ascending cs := (h [] _ get?_nil).1
      simp only [select, List.mem_flatMap, List.mem_map, Prod.exists, mem_matching_iff,
        Keyed.mem_iff_lookup hasc, Prod.mk.injEq]
      constructor
      · rintro ⟨name, child, ⟨hfits, hchild⟩, path, _, hpath, rfl, rfl⟩
        have hstep : (container revision cs).get? [name] = some child :=
          get?_singleton.trans hchild
        obtain ⟨hrest, hpart⟩ := (ih (h.of_get? hstep)).1 hpath
        refine ⟨⟨hfits, hrest⟩, ?_⟩
        rw [get?_cons, children_container, hchild]
        exact hpart
      · rintro ⟨hfits, hpart⟩
        cases q with
        | nil => cases hfits
        | cons name path =>
          rw [get?_cons] at hpart
          obtain ⟨child, hchild, hpart⟩ := Option.bind_eq_some_iff.1 hpart
          have hstep := get?_singleton.trans hchild
          exact ⟨name, child, ⟨hfits.1, hchild⟩, path, part,
            (ih (h.of_get? hstep)).2 ⟨hfits.2, hpart⟩, rfl, rfl⟩

end Node

namespace Tree

variable {t t' : Tree} {a pattern : Address} {key url : String} {entry : Entry} {n : Nat}
  {p : List String}

/-- Reading gives the node at the address. -/
theorem get_eq_ok_iff :
    t.get a = .ok entry ↔
      ∃ part, t.root.get? a.segments = some part ∧ entry = ⟨part.revision, part.toJson⟩ := by
  unfold get
  cases hfind : t.find a with
  | ok part =>
    rw [find_eq_ok_iff.1 hfind]
    simp [Except.map, eq_comm]
  | error e =>
    have hnone : t.root.get? a.segments = none := by
      rw [Option.eq_none_iff_forall_ne_some]
      intro part hpart
      rw [find_eq_ok_iff.2 hpart] at hfind
      cases hfind
    simp [Except.map, hnone]

/-- The key under which a query shows the node on the path `q`: the address of the node, or the
caller's spelling if the query has no wildcard and names that node. -/
def resultKey (pattern : Address) (key : String) (q : List String) : String :=
  if pattern.hasWildcard then (Address.mk pattern.scheme q).text else key

/-- The walk of a query finds the nodes on the paths that fit the pattern, each under its own
address. -/
theorem mem_select (hwf : t.root.WellFormed) (hpattern : pattern.WellFormed) :
    (url, entry) ∈ t.select pattern ↔ ∃ q part, Fits pattern.segments q ∧
      t.root.get? q = some part ∧ url = (Address.mk pattern.scheme q).text ∧
      entry = ⟨part.revision, part.toJson⟩ := by
  have hpair : ∀ u e, (u, e) ∈ (t.root.select pattern.segments).map (fun found =>
      ((Address.mk pattern.scheme found.1).text, Entry.mk found.2.revision found.2.toJson)) ↔
      ∃ q part, Fits pattern.segments q ∧ t.root.get? q = some part ∧
        u = (Address.mk pattern.scheme q).text ∧ e = ⟨part.revision, part.toJson⟩ := by
    intro u e
    simp only [List.mem_map, Prod.exists, Node.mem_select_iff hwf, Prod.mk.injEq, and_assoc,
      eq_comm]
  rw [select, Keyed.mem_ofList_iff, hpair]
  -- No address stands for two nodes.
  intro u e e' he he'
  obtain ⟨q, part, -, hpart, rfl, rfl⟩ := (hpair u e).1 he
  obtain ⟨q', part', -, hpart', htext, rfl⟩ := (hpair _ e').1 he'
  cases hwf.path_eq_of_text_eq hwf hpart hpart' hpattern.scheme_ne hpattern.scheme_slash htext
  rw [hpart] at hpart'
  cases hpart'
  rfl

/-- What a query without a wildcard finds is what can be read at its address. -/
theorem mem_expand_of_concrete (hconcrete : pattern.hasWildcard = false) :
    (url, entry) ∈ t.expand pattern key ↔ url = key ∧ t.get pattern = .ok entry := by
  rw [expand, if_neg (Bool.eq_false_iff.1 hconcrete)]
  cases t.get pattern with
  | ok found => simp [eq_comm]
  | error => simp

/-- A query finds the nodes on the paths that fit its pattern. -/
theorem mem_expand_iff (hwf : t.root.WellFormed) (hpattern : pattern.WellFormed) :
    (url, entry) ∈ t.expand pattern key ↔ ∃ q part, Fits pattern.segments q ∧
      t.root.get? q = some part ∧ url = resultKey pattern key q ∧
      entry = ⟨part.revision, part.toJson⟩ := by
  cases hwild : pattern.hasWildcard with
  | true => simp only [expand, resultKey, hwild, if_true, mem_select hwf hpattern]
  | false =>
    rw [mem_expand_of_concrete hwild, get_eq_ok_iff]
    simp only [resultKey, hwild, fits_iff_eq (Address.hasWildcard_eq_false_iff.1 hwild)]
    constructor
    · rintro ⟨rfl, part, hpart, rfl⟩
      exact ⟨_, part, rfl, hpart, rfl, rfl⟩
    · rintro ⟨_, part, rfl, hpart, rfl, rfl⟩
      exact ⟨rfl, part, hpart, rfl⟩

/-- The result of a query is in order. -/
theorem ascending_expand : Keyed.Ascending (t.expand pattern key) := by
  unfold expand
  split
  · exact Keyed.ascending_ofList
  · split
    · exact List.pairwise_singleton _ _
    · exact .nil

/-- What a query finds is what its walk finds, but for the spelling of the key. -/
theorem select_eq_expand (hwf : t.root.WellFormed) (hpattern : pattern.WellFormed) :
    t.select pattern = t.expand pattern pattern.text := by
  cases hwild : pattern.hasWildcard with
  | true => rw [expand, if_pos hwild]
  | false =>
    have hselect : Keyed.Ascending (t.select pattern) := Keyed.ascending_ofList
    refine hselect.ext ascending_expand fun ⟨url, entry⟩ => ?_
    rw [mem_select hwf hpattern, mem_expand_iff hwf hpattern]
    simp only [resultKey, hwild, fits_iff_eq (Address.hasWildcard_eq_false_iff.1 hwild)]
    constructor
    · rintro ⟨_, part, rfl, hpart, rfl, rfl⟩
      exact ⟨_, part, rfl, hpart, rfl, rfl⟩
    · rintro ⟨_, part, rfl, hpart, rfl, rfl⟩
      exact ⟨_, part, rfl, hpart, rfl, rfl⟩

/-- A query shows different nodes under different keys, be it in two trees. -/
theorem path_eq_of_resultKey_eq {q q' : List String} {part part' : Node}
    (hwf : t.root.WellFormed) (hwf' : t'.root.WellFormed) (hpattern : pattern.WellFormed)
    (hfits : Fits pattern.segments q) (hfits' : Fits pattern.segments q')
    (hpart : t.root.get? q = some part) (hpart' : t'.root.get? q' = some part')
    (hkey : resultKey pattern key q = resultKey pattern key q') : q = q' := by
  cases hwild : pattern.hasWildcard with
  | true =>
    rw [resultKey, resultKey, if_pos hwild, if_pos hwild] at hkey
    exact hwf.path_eq_of_text_eq hwf' hpart hpart' hpattern.scheme_ne hpattern.scheme_slash hkey
  | false =>
    rw [fits_iff_eq (Address.hasWildcard_eq_false_iff.1 hwild)] at hfits hfits'
    exact hfits.trans hfits'.symm

/-- What a query finds under an address is what can be read there. -/
theorem mem_expand (hwf : t.root.WellFormed) (hkey : Address.parse key = .ok pattern)
    (h : (url, entry) ∈ t.expand pattern key) :
    ∃ a, Address.parse url = .ok a ∧ a.scheme = pattern.scheme ∧ a.hasWildcard = false ∧
      t.get a = .ok entry := by
  have hpattern := Address.wellFormed_of_parse hkey
  cases hwild : pattern.hasWildcard with
  | false =>
    obtain ⟨rfl, hget⟩ := (mem_expand_of_concrete hwild).1 h
    exact ⟨pattern, hkey, rfl, hwild, hget⟩
  | true =>
    obtain ⟨q, part, -, hpart, hurl, rfl⟩ := (mem_expand_iff hwf hpattern).1 h
    rw [resultKey, if_pos hwild] at hurl
    subst hurl
    -- A wildcard is no name that a node can have.
    have hconcrete : Address.wildcard ∉ q := fun hmem =>
      (Node.isAddressable_iff.1 (hwf.isAddressable_of_mem hpart _ hmem)).2.2 rfl
    exact ⟨⟨pattern.scheme, q⟩,
      hwf.parse_text hpart hpattern.scheme_ne hpattern.scheme_slash, rfl,
      Address.hasWildcard_eq_false_iff.2 hconcrete, get_eq_ok_iff.2 ⟨part, hpart, rfl⟩⟩

/-! ## Queries before and after a write -/

/-- A write of revision `n` at the end of the path `p` has made `t` into `t'`. -/
structure Renewed (n : Nat) (p : List String) (t t' : Tree) : Prop where
  before : t.root.WellFormed
  after : t'.root.WellFormed
  /-- The revision is new. -/
  older : ∀ q part, t.root.get? q = some part → part.revision < n
  written : ∃ left, Node.Written n p left t.root t'.root

/-- Some path that fits the pattern is related to `p`, and there is a node on it in one of the two
trees. -/
def Touches (pattern : Address) (p : List String) (t t' : Tree) : Prop :=
  ∃ q, Fits pattern.segments q ∧ Related p q ∧ ((t.root.get? q).isSome ∨ (t'.root.get? q).isSome)

/-- The addresses and revisions that a query finds. -/
theorem mem_revisions_expand_iff {revision : Nat} (hwf : t.root.WellFormed)
    (hpattern : pattern.WellFormed) :
    (url, revision) ∈ (t.expand pattern key).revisions ↔ ∃ q part, Fits pattern.segments q ∧
      t.root.get? q = some part ∧ url = resultKey pattern key q ∧ revision = part.revision := by
  rw [Matches.revisions, List.mem_map]
  constructor
  · rintro ⟨⟨u, e⟩, he, heq⟩
    obtain ⟨rfl, rfl⟩ := Prod.mk.inj heq
    obtain ⟨q, part, hfits, hpart, rfl, rfl⟩ := (mem_expand_iff hwf hpattern).1 he
    exact ⟨q, part, hfits, hpart, rfl, rfl⟩
  · rintro ⟨q, part, hfits, hpart, rfl, rfl⟩
    exact ⟨_, (mem_expand_iff hwf hpattern).2 ⟨q, part, hfits, hpart, rfl, rfl⟩, rfl⟩

namespace Renewed

/-- A write that touches nothing that a query matches does not change its result. -/
theorem expand_eq_of_not_touches (hw : Renewed n p t t') (hpattern : pattern.WellFormed)
    (h : ¬ Touches pattern p t t') : t.expand pattern key = t'.expand pattern key := by
  obtain ⟨left, hwritten⟩ := hw.written
  have hsame : ∀ q, Fits pattern.segments q → t'.root.get? q = t.root.get? q := by
    intro q hfits
    by_cases hq : Related p q
    · have hnone := not_or.1 fun hsome => h ⟨q, hfits, hq, hsome⟩
      rw [Option.not_isSome_iff_eq_none, Option.not_isSome_iff_eq_none] at hnone
      rw [hnone.1, hnone.2]
    · exact hwritten.beside q hq
  refine ascending_expand.ext ascending_expand fun ⟨url, entry⟩ => ?_
  rw [mem_expand_iff hw.before hpattern, mem_expand_iff hw.after hpattern]
  constructor
  · rintro ⟨q, part, hfits, hpart, hshown⟩
    exact ⟨q, part, hfits, (hsame q hfits).trans hpart, hshown⟩
  · rintro ⟨q, part, hfits, hpart, hshown⟩
    exact ⟨q, part, hfits, (hsame q hfits).symm.trans hpart, hshown⟩

/-- A write that touches something that a query matches changes the addresses or the revisions of
its result: what is there after the write has a new revision, and what is there no more has left
its address. -/
theorem revisions_expand_ne (hw : Renewed n p t t') (hpattern : pattern.WellFormed)
    (h : Touches pattern p t t') :
    (t.expand pattern key).revisions ≠ (t'.expand pattern key).revisions := by
  intro heq
  obtain ⟨left, hwritten⟩ := hw.written
  obtain ⟨q, hfits, hq, hsome⟩ := h
  cases hafter : t'.root.get? q with
  | some part' =>
    have hmem : (resultKey pattern key q, n) ∈ (t'.expand pattern key).revisions :=
      (mem_revisions_expand_iff hw.after hpattern).2
        ⟨q, part', hfits, hafter, rfl, (hwritten.revision_eq hq hafter).symm⟩
    rw [← heq, mem_revisions_expand_iff hw.before hpattern] at hmem
    obtain ⟨q', part, -, hpart, -, hrevision⟩ := hmem
    exact Nat.ne_of_lt (hw.older q' part hpart) hrevision.symm
  | none =>
    rw [hafter] at hsome
    obtain ⟨part, hbefore⟩ := Option.isSome_iff_exists.1 (hsome.resolve_right nofun)
    have hmem : (resultKey pattern key q, part.revision) ∈ (t.expand pattern key).revisions :=
      (mem_revisions_expand_iff hw.before hpattern).2 ⟨q, part, hfits, hbefore, rfl, rfl⟩
    rw [heq, mem_revisions_expand_iff hw.after hpattern] at hmem
    obtain ⟨q', part', hfits', hpart', hkey, -⟩ := hmem
    cases path_eq_of_resultKey_eq hw.before hw.after hpattern hfits hfits' hbefore hpart' hkey
    rw [hafter] at hpart'
    cases hpart'

/-- A query whose addresses and revisions are the same after a write has the same result. -/
theorem expand_eq_of_revisions_eq (hw : Renewed n p t t') (hpattern : pattern.WellFormed)
    (h : (t.expand pattern key).revisions = (t'.expand pattern key).revisions) :
    t.expand pattern key = t'.expand pattern key :=
  hw.expand_eq_of_not_touches hpattern fun htouches => hw.revisions_expand_ne hpattern htouches h

end Renewed

end Tree

end Switchboard
