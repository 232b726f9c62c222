import Mathlib
import Switchboard.Proofs.Store.Sound
/-!
# Everything that is stored can be addressed

Names get into a tree on two ways: as segments of an address that is written, and as keys of a
value. Both admit the same names, those that a concrete address can spell, so that every node of
every state of a run has a text of its own at which it is read (`Store.stored_has_address`). If the
scheme of a store cannot be part of an address, then no text names anything in it, and the store
stays as it was made.
-/

namespace Switchboard.Store

variable {s : Store} {scheme url : String} {history : List (List String)}

/-! ## Schemes that an address can have -/

/-- A node of a sound store is read at the text of its address, which names one node. -/
theorem Sound.reads {q : List String} {node : Node} (h : s.Sound history) (hne : s.scheme ≠ "")
    (hslash : '/' ∉ s.scheme.toList) (hnode : s.tree.root.get? q = some node) :
    s.parseConcrete (Address.mk s.scheme q).text = .ok ⟨s.scheme, q⟩ ∧
      s.get (Address.mk s.scheme q).text = .ok ⟨node.revision, node.toJson⟩ := by
  have hwild : Address.wildcard ∉ q := fun hmem =>
    (Node.isAddressable_iff.1 (h.wellFormed.isAddressable_of_mem hnode _ hmem)).2.2 rfl
  have hparse : s.parseConcrete (Address.mk s.scheme q).text = .ok ⟨s.scheme, q⟩ := by
    refine parseConcrete_eq_ok_iff.2 ⟨?_, rfl, Address.hasWildcard_eq_false_iff.2 hwild⟩
    exact h.wellFormed.parse_text hnode (by simpa using hne) hslash
  refine ⟨hparse, get_eq_ok_iff.2 ⟨_, hparse, ?_⟩⟩
  rw [Tree.get, Tree.find_eq_ok_iff.2 hnode]
  rfl

/-! ## Schemes that no address has -/

/-- A store whose scheme is empty or holds a slash has no addresses. -/
theorem parse_eq_error_of_scheme (h : s.scheme = "" ∨ '/' ∈ s.scheme.toList) (url : String) :
    ∃ e, s.parse url = .error e ∧ e.isInvalidUrl = true := by
  cases hparse : s.parse url with
  | error e => exact ⟨e, rfl, isInvalidUrl_of_parse hparse⟩
  | ok a =>
    obtain ⟨hread, hscheme⟩ := parse_eq_ok hparse
    have hwf := Address.wellFormed_of_parse hread
    rcases h with hempty | hslash
    · exact absurd (by rw [hscheme, hempty]; rfl) hwf.scheme_ne
    · exact absurd (hscheme ▸ hslash) hwf.scheme_slash

/-- Every request to a store without addresses fails, and changes nothing. -/
structure Closed (s : Store) : Prop where
  get : ∀ url, ∃ e, s.get url = .error e ∧ e.isInvalidUrl = true
  set : ∀ url v expected, ∃ e, s.set url v expected = (.error e, s) ∧ e.isInvalidUrl = true
  remove : ∀ url expected, ∃ e, s.remove url expected = (.error e, s) ∧ e.isInvalidUrl = true
  expand : ∀ pattern, ∃ e, s.expand pattern = .error e ∧ e.isInvalidUrl = true
  watch : ∀ pattern, ∃ e, s.watch pattern = .error e ∧ e.isInvalidUrl = true

theorem closed_of_scheme (h : s.scheme = "" ∨ '/' ∈ s.scheme.toList) : s.Closed := by
  have hconcrete : ∀ url, ∃ e, s.parseConcrete url = .error e ∧ e.isInvalidUrl = true := by
    intro url
    obtain ⟨e, he, hinvalid⟩ := parse_eq_error_of_scheme h url
    exact ⟨e, by rw [parseConcrete, he], hinvalid⟩
  constructor
  · intro url
    obtain ⟨e, he, hinvalid⟩ := hconcrete url
    exact ⟨e, by rw [Store.get, he], hinvalid⟩
  · intro url v expected
    obtain ⟨e, he, hinvalid⟩ := hconcrete url
    exact ⟨e, by rw [Store.set, he], hinvalid⟩
  · intro url expected
    obtain ⟨e, he, hinvalid⟩ := hconcrete url
    exact ⟨e, by rw [Store.remove, he], hinvalid⟩
  · intro pattern
    obtain ⟨e, he, hinvalid⟩ := parse_eq_error_of_scheme h pattern
    exact ⟨e, by rw [Store.expand, he]; rfl, hinvalid⟩
  · intro pattern
    obtain ⟨e, he, hinvalid⟩ := parse_eq_error_of_scheme h pattern
    exact ⟨e, by rw [Store.watch, he]; rfl, hinvalid⟩

/-- A call leaves a new store without addresses as it is: no write and no registration succeeds,
and there are no watches to serve. -/
theorem call_new_of_scheme (h : scheme = "" ∨ '/' ∈ scheme.toList) (c : Call) :
    ((new scheme).call c).2 = new scheme := by
  have hclosed := closed_of_scheme (s := new scheme) h
  cases c with
  | get url =>
    obtain ⟨e, he, -⟩ := hclosed.get url
    rw [call, he]
  | expand pattern =>
    obtain ⟨e, he, -⟩ := hclosed.expand pattern
    rw [call, he]
  | watch pattern =>
    obtain ⟨e, he, -⟩ := hclosed.watch pattern
    rw [call, he]
  | write w =>
    rw [call]
    cases hw : (new scheme).write w with
    | mk outcome s' =>
      cases outcome with
      | error e => exact write_eq_error hw
      | ok n =>
        obtain ⟨a, hwrote⟩ := write_wrote hw
        obtain ⟨e, he, -⟩ := parse_eq_error_of_scheme (s := new scheme) h w.url
        have haddress := hwrote.address
        rw [parseConcrete, he] at haddress
        cases haddress
  | take | poll | cancel | release | drop => rfl

theorem after_new_of_scheme (h : scheme = "" ∨ '/' ∈ scheme.toList) (calls : List Call) :
    (new scheme).after calls = new scheme := by
  induction calls with
  | nil => rfl
  | cons c calls ih => rw [after, call_new_of_scheme h, ih]

/-! ## Every state of a run -/

/-- **Everything that is stored can be addressed.** In every state of a run of a store whose scheme
is not empty and holds no slash, the names on the way to a node are not empty, hold no slash and are
no wildcards. The text that is made of the scheme and these names is read as the address of that
node alone, the node is read there, and no other node has that text. A store with any other scheme
refuses all that is asked of it as an address at fault, and never changes. -/
theorem stored_has_address (scheme : String) (calls : List Call) :
    let s := (new scheme).after calls
    (scheme ≠ "" ∧ '/' ∉ scheme.toList → ∀ q node, s.tree.root.get? q = some node →
      (∀ name ∈ q, name ≠ "" ∧ '/' ∉ name.toList ∧ name ≠ Address.wildcard) ∧
      s.parseConcrete (Address.mk scheme q).text = .ok ⟨scheme, q⟩ ∧
      s.get (Address.mk scheme q).text = .ok ⟨node.revision, node.toJson⟩ ∧
      ∀ q' node', s.tree.root.get? q' = some node' →
        (Address.mk scheme q').text = (Address.mk scheme q).text → q' = q) ∧
    (scheme = "" ∨ '/' ∈ scheme.toList → s = new scheme ∧ s.Closed) := by
  intro s
  have hsound : s.Sound ((new scheme).history calls) := (Sound.new scheme).after calls
  have hscheme : s.scheme = scheme := scheme_after (new scheme) calls
  constructor
  · rintro ⟨hne, hslash⟩ q node hnode
    rw [← hscheme] at hne hslash ⊢
    obtain ⟨hparse, hget⟩ := hsound.reads hne hslash hnode
    refine ⟨fun name hname => ?_, hparse, hget, fun q' node' hnode' htext => ?_⟩
    · have haddressable := hsound.wellFormed.isAddressable_of_mem hnode name hname
      obtain ⟨hempty, hnoslash, hwild⟩ := Node.isAddressable_iff.1 haddressable
      exact ⟨fun h => hempty (h ▸ rfl), hnoslash, hwild⟩
    · exact hsound.wellFormed.path_eq_of_text_eq hsound.wellFormed hnode' hnode
        (by simpa using hne) hslash htext
  · intro hbad
    have hnew : s = new scheme := after_new_of_scheme hbad calls
    rw [hnew]
    exact ⟨rfl, closed_of_scheme hbad⟩

/-- A lamp with a key of its own, in a store with addresses, and a store that has none. -/
theorem lamp_has_address :
    let s := (new "home").after
      [.write (.set "home://lamp" (.object [("on", .bool true)]) .unchecked)]
    s.get (Address.mk "home" ["lamp", "on"]).text = .ok ⟨1, .bool true⟩ ∧
    (∀ q' node', s.tree.root.get? q' = some node' →
      (Address.mk "home" q').text = (Address.mk "home" ["lamp", "on"]).text →
        q' = ["lamp", "on"]) ∧
    ((new "a/b").after [.write (.set "a/b://lamp" .null .unchecked)]).Closed := by
  have hnode : ((new "home").after [.write (.set "home://lamp" (.object [("on", .bool true)])
      .unchecked)]).tree.root.get? ["lamp", "on"] = some (.leaf 1 (.scalar (.bool true))) := by
    cbv
  have hscheme : "home" ≠ "" ∧ '/' ∉ "home".toList := by simp
  have hbad : "a/b" = "" ∨ '/' ∈ "a/b".toList := by simp
  obtain ⟨-, -, hget, hunique⟩ := (stored_has_address "home" _).1 hscheme _ _ hnode
  exact ⟨hget, hunique, ((stored_has_address "a/b" _).2 hbad).2⟩

end Switchboard.Store
