import Mathlib
import Switchboard.Proofs.Store.Sound
/-!
# Queries of a store

A query with a wildcard finds exactly the nodes on the paths that fit its pattern
(`Store.FindsFitting`): all of them, nothing else, each once and under the address from which it
can be read. A query without one reads a single node, and finds what the walk over the tree would
have found, under the caller's spelling of the address (`Store.expand_finds_fitting`).
-/

namespace Switchboard.Store

variable {s : Store} {history : List (List String)} {text : String} {pattern : Address}

/-- What was found are the nodes on the paths that fit the pattern, each under an address of its
own. -/
structure FindsFitting (s : Store) (pattern : Address) (found : Matches) : Prop where
  /-- The keys are the addresses of the nodes on the paths that fit. -/
  keys : ∀ url, url ∈ found.map Prod.fst ↔ ∃ q part, Fits pattern.segments q ∧
    s.tree.root.get? q = some part ∧ url = (Address.mk s.scheme q).text
  /-- No key is there twice. -/
  keys_nodup : (found.map Prod.fst).Nodup
  /-- No two nodes share a key. -/
  path_eq : ∀ q q' part part', Fits pattern.segments q → Fits pattern.segments q' →
    s.tree.root.get? q = some part → s.tree.root.get? q' = some part' →
    (Address.mk s.scheme q).text = (Address.mk s.scheme q').text → q = q'
  /-- A key names one node, and what is read there is what was found under the key. -/
  readable : ∀ url entry, (url, entry) ∈ found →
    (∃ a, s.parseConcrete url = .ok a) ∧ s.get url = .ok entry

/-- In a sound store a query with a wildcard finds the nodes on the paths that fit. -/
theorem Sound.findsFitting (h : s.Sound history) (hparse : s.parse text = .ok pattern)
    (hwild : pattern.hasWildcard = true) :
    s.FindsFitting pattern (s.tree.expand pattern text) := by
  obtain ⟨hkey, hscheme⟩ := parse_eq_ok hparse
  have hpattern := Address.wellFormed_of_parse hkey
  have hne : s.scheme.toList ≠ [] := hscheme ▸ hpattern.scheme_ne
  have hslash : '/' ∉ s.scheme.toList := hscheme ▸ hpattern.scheme_slash
  refine ⟨fun url => ?_, Tree.ascending_expand.nodup_keys, ?_, fun url entry hentry => ?_⟩
  · simp only [List.mem_map, Prod.exists, exists_and_right, exists_eq_right,
      Tree.mem_expand_iff h.wellFormed hpattern, Tree.resultKey, if_pos hwild, hscheme]
    constructor
    · rintro ⟨entry, q, part, hfits, hpart, hurl, -⟩
      exact ⟨q, part, hfits, hpart, hurl⟩
    · rintro ⟨q, part, hfits, hpart, hurl⟩
      exact ⟨_, q, part, hfits, hpart, hurl, rfl⟩
  · intro q q' part part' _ _ hpart hpart' htext
    exact h.wellFormed.path_eq_of_text_eq h.wellFormed hpart hpart' hne hslash htext
  · have hget := get_of_mem_expand h hkey hscheme hentry
    obtain ⟨a, ha, -⟩ := get_eq_ok_iff.1 hget
    exact ⟨⟨a, ha⟩, hget⟩

/-- A query without a wildcard finds what is read at its address. -/
theorem expand_of_concrete (hparse : s.parse text = .ok pattern)
    (hconcrete : pattern.hasWildcard = false) (key : String) :
    (∀ entry, s.get text = .ok entry → s.tree.expand pattern key = [(key, entry)]) ∧
    (∀ e, s.get text = .error e → s.tree.expand pattern key = []) := by
  have hget : s.get text = s.tree.get pattern := by
    rw [get, parseConcrete, hparse]
    simp [Address.requireConcrete, hconcrete, Except.map]
  rw [hget, Tree.expand, if_neg (Bool.eq_false_iff.1 hconcrete)]
  constructor
  · intro entry hentry
    rw [hentry]
  · intro e he
    rw [he]

/-- **A query finds what fits its pattern.** In every state of a run, a pattern that is read as one
of the store's is answered. If it has a wildcard, the answer holds the nodes that fit it, each once
and under an address that reads back as what was found. If it has none, the answer is the entry
that is read there, under the caller's spelling, or nothing if that fails; the walk that follows
the pattern through the tree would find the same under the address as it is written. -/
theorem expand_finds_fitting (scheme : String) (calls : List Call) (text : String)
    (pattern : Address) :
    let s := (new scheme).after calls
    s.parse text = .ok pattern →
    (pattern.hasWildcard = true →
      ∃ found, s.expand text = .ok found ∧ s.FindsFitting pattern found) ∧
    (pattern.hasWildcard = false →
      (∀ entry, s.get text = .ok entry →
        s.expand text = .ok [(text, entry)] ∧ s.tree.select pattern = [(pattern.text, entry)]) ∧
      (∀ e, s.get text = .error e →
        s.expand text = .ok [] ∧ s.tree.select pattern = [])) := by
  intro s hparse
  have hsound := (Sound.new scheme).after calls
  have hexpand : s.expand text = .ok (s.tree.expand pattern text) := by
    rw [expand, hparse]
    rfl
  constructor
  · intro hwild
    exact ⟨_, hexpand, hsound.findsFitting hparse hwild⟩
  · intro hconcrete
    have hpattern := Address.wellFormed_of_parse (parse_eq_ok hparse).1
    rw [hexpand, Tree.select_eq_expand hsound.wellFormed hpattern]
    obtain ⟨hfound, hnothing⟩ := expand_of_concrete hparse hconcrete text
    obtain ⟨hfound', hnothing'⟩ := expand_of_concrete hparse hconcrete pattern.text
    exact ⟨fun entry hentry => ⟨congrArg _ (hfound entry hentry), hfound' entry hentry⟩,
      fun e he => ⟨congrArg _ (hnothing e he), hnothing' e he⟩⟩

/-- Two lamps, one of which has a dimmer, and a query for dimmers with a wildcard and without. -/
theorem dimmers_found :
    let s := (new "status").after [.write (.set "status://lamp" (.object
      [("desk", .object [("dim", .bool true)]), ("hall", .object [])]) .unchecked)]
    (∃ found, s.expand "status://lamp/*/dim" = .ok found ∧
      s.FindsFitting ⟨"status", ["lamp", "*", "dim"]⟩ found) ∧
    s.expand "status://lamp/desk/dim/" = .ok [("status://lamp/desk/dim/", ⟨1, .bool true⟩)] := by
  have hwild : ((new "status").after [.write (.set "status://lamp" (.object
      [("desk", .object [("dim", .bool true)]), ("hall", .object [])]) .unchecked)]).parse
    "status://lamp/*/dim" = .ok ⟨"status", ["lamp", "*", "dim"]⟩ := by cbv
  have hconcrete : ((new "status").after [.write (.set "status://lamp" (.object
      [("desk", .object [("dim", .bool true)]), ("hall", .object [])]) .unchecked)]).parse
    "status://lamp/desk/dim/" = .ok ⟨"status", ["lamp", "desk", "dim"]⟩ := by cbv
  have hget : ((new "status").after [.write (.set "status://lamp" (.object
      [("desk", .object [("dim", .bool true)]), ("hall", .object [])]) .unchecked)]).get
    "status://lamp/desk/dim/" = .ok ⟨1, .bool true⟩ := by cbv
  exact ⟨(expand_finds_fitting "status" _ _ _ hwild).1 rfl,
    (((expand_finds_fitting "status" _ _ _ hconcrete).2 rfl).1 _ hget).1⟩

end Switchboard.Store
