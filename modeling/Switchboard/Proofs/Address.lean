import Switchboard.Address
/-!
# Addresses and their text

An address is well formed if its parts survive being written one after the other: the scheme is not
empty and holds no slash, and neither do the segments. What `Address.parse` reads is well formed
(`wellFormed_of_parse`), and a well-formed address is read back from its text (`parse_text`). Of
any other text it is reported that it is no address (`isInvalidUrl_of_parse`).
-/

namespace Switchboard.Address

variable {a : Address} {url : String}

/-- Neither the scheme nor a segment is empty or holds a slash. -/
structure WellFormed (a : Address) : Prop where
  scheme_ne : a.scheme.toList ≠ []
  scheme_slash : '/' ∉ a.scheme.toList
  segment_ne : ∀ s ∈ a.segments, s.toList ≠ []
  segment_slash : ∀ s ∈ a.segments, '/' ∉ s.toList

/-- The address of the root has the same scheme and no segments. -/
theorem WellFormed.root (h : a.WellFormed) : (Address.root a.scheme).WellFormed where
  scheme_ne := h.scheme_ne
  scheme_slash := h.scheme_slash
  segment_ne := nofun
  segment_slash := nofun

/-- An address names one node if no segment is a wildcard. -/
theorem hasWildcard_eq_false_iff : a.hasWildcard = false ↔ wildcard ∉ a.segments := by
  rw [hasWildcard, ← Bool.not_eq_true, List.contains_iff_mem]

/-! ## Pieces of text -/

/-- The pieces between separators hold no separator. -/
theorem not_mem_of_mem_splitOn {sep : Char} {chars piece : List Char}
    (h : piece ∈ chars.splitOn sep) : sep ∉ piece := by
  induction chars generalizing piece with
  | nil =>
    rw [List.splitOn_nil, List.mem_singleton] at h
    subst h
    exact List.not_mem_nil
  | cons c rest ih =>
    rw [List.splitOn_cons_eq_if_modifyHead] at h
    split at h
    · rcases List.mem_cons.1 h with rfl | h
      · exact List.not_mem_nil
      · exact ih h
    · next hc =>
      cases hs : rest.splitOn sep with
      | nil => exact absurd hs (List.splitOn_ne_nil _ _)
      | cons first others =>
        rw [hs] at h ih
        rcases List.mem_cons.1 h with rfl | h
        · rw [List.mem_cons]
          rintro (rfl | hmem)
          · exact hc (beq_self_eq_true _)
          · exact ih List.mem_cons_self hmem
        · exact ih (List.mem_cons_of_mem _ h)

/-- A text without the mark in front is cut after its first character at the earliest. -/
theorem cutScheme_cons {c : Char} {chars : List Char}
    (h : ∀ rest, c :: chars ≠ ':' :: '/' :: '/' :: rest) :
    cutScheme (c :: chars) = (cutScheme chars).map fun (scheme, path) => (c :: scheme, path) := by
  rw [cutScheme]
  intro rest hc hchars
  exact h rest (by rw [hc, hchars])

/-- A scheme without slashes is cut off whole: no earlier place can be the mark, which has two. -/
theorem cutScheme_append {scheme : List Char} (path : List Char) (h : '/' ∉ scheme) :
    cutScheme (scheme ++ ':' :: '/' :: '/' :: path) = some (scheme, path) := by
  induction scheme with
  | nil => rfl
  | cons c scheme ih =>
    rw [List.cons_append, cutScheme_cons, ih fun hmem => h (List.mem_cons_of_mem _ hmem),
      Option.map_some]
    intro rest heq
    cases scheme with
    | nil => simp at heq
    | cons d scheme =>
      obtain ⟨-, rfl, -⟩ : c = ':' ∧ d = '/' ∧ _ := by simpa using heq
      exact h (List.mem_cons_of_mem _ List.mem_cons_self)

/-- Segments that are not empty join to a text that is not empty. -/
theorem intercalate_ne_nil {first : List Char} {rest : List (List Char)} (h : first ≠ []) :
    ['/'].intercalate (first :: rest) ≠ [] := by
  cases rest with
  | nil => rwa [List.intercalate_singleton]
  | cons second rest => simp [List.intercalate_cons_cons, h]

/-- Segments that are not empty and hold no slash join to a text that does not end in one. -/
theorem getLast?_intercalate_ne {segments : List (List Char)}
    (h : ∀ s ∈ segments, s ≠ [] ∧ '/' ∉ s) :
    (['/'].intercalate segments).getLast? ≠ some '/' := by
  induction segments with
  | nil => simp
  | cons first rest ih =>
    cases rest with
    | nil =>
      rw [List.intercalate_singleton]
      exact fun hlast => (h first List.mem_cons_self).2 (List.mem_of_getLast? hlast)
    | cons second rest =>
      have hne : ['/'].intercalate (second :: rest) ≠ [] :=
        intercalate_ne_nil (h second (by simp)).1
      rw [List.intercalate_cons_cons, List.getLast?_append,
        Option.or_of_isSome (List.getLast?_isSome.2 hne)]
      exact ih fun s hs => h s (List.mem_cons_of_mem _ hs)

/-- Segments that are not empty and hold no slash are split again where they were joined. -/
theorem splitPath_intercalate {segments : List (List Char)}
    (h : ∀ s ∈ segments, s ≠ [] ∧ '/' ∉ s) :
    splitPath (dropSlash (['/'].intercalate segments)) = segments := by
  rw [dropSlash, if_neg (getLast?_intercalate_ne h), splitPath]
  cases segments with
  | nil => rfl
  | cons first rest =>
    rw [if_neg (intercalate_ne_nil (h first List.mem_cons_self).1)]
    exact List.splitOn_intercalate '/' (fun s hs => (h s hs).2) (List.cons_ne_nil _ _)

/-! ## Reading and writing -/

/-- The text of an address, character by character. -/
theorem toList_text : a.text.toList =
    a.scheme.toList ++ ':' :: '/' :: '/' :: ['/'].intercalate (a.segments.map String.toList) := by
  rw [text, String.toList_append, String.toList_append, String.toList_intercalate,
    List.append_assoc]
  rfl

/-- A well-formed address is read back from its text. -/
theorem parse_text (h : a.WellFormed) : parse a.text = .ok a := by
  have hsegments : ∀ s ∈ a.segments.map String.toList, s ≠ [] ∧ '/' ∉ s := by
    intro s hs
    obtain ⟨name, hname, rfl⟩ := List.mem_map.1 hs
    exact ⟨h.segment_ne name hname, h.segment_slash name hname⟩
  have hnil : [] ∉ a.segments.map String.toList := fun hmem => (hsegments _ hmem).1 rfl
  simp only [parse, toList_text, cutScheme_append _ h.scheme_slash]
  rw [splitPath_intercalate hsegments, if_neg (by simp [h.scheme_ne, h.scheme_slash]), if_neg hnil]
  simp

/-- What is read is a well-formed address. -/
theorem wellFormed_of_parse (h : parse url = .ok a) : a.WellFormed := by
  simp only [parse] at h
  split at h
  · cases h
  · next scheme path _ =>
    split at h
    · cases h
    · next hscheme =>
      split at h
      · cases h
      · next hnil =>
        cases h
        rw [not_or] at hscheme
        refine ⟨by simpa using hscheme.1, by simpa using hscheme.2, fun s hs => ?_, fun s hs => ?_⟩
        · obtain ⟨piece, hpiece, rfl⟩ := List.mem_map.1 hs
          rw [String.toList_ofList]
          exact fun hempty => hnil (hempty ▸ hpiece)
        · obtain ⟨piece, hpiece, rfl⟩ := List.mem_map.1 hs
          rw [String.toList_ofList]
          rw [splitPath] at hpiece
          split at hpiece
          · cases hpiece
          · exact not_mem_of_mem_splitOn hpiece

/-- A text that is no address is at fault itself. -/
theorem isInvalidUrl_of_parse {e : StoreError} (h : parse url = .error e) :
    e.isInvalidUrl = true := by
  unfold parse at h
  split at h
  · cases h
    rfl
  · split at h
    · cases h
      rfl
    · dsimp only at h
      split at h
      · cases h
        rfl
      · cases h

end Switchboard.Address
