import Switchboard.Proofs.Address
/-!
# The grammar of addresses

A text is an address if it is a scheme, the mark `://` and a path (`Address.Splits`), and the path is
a row of segments with slashes between them and perhaps one behind (`Address.Lists`). The first slash
of such a text belongs to the mark, since a scheme has none, so there is one way at most to split a
text, and the segments of a path are what stands between its slashes.

`Address.parse` reads exactly these texts and tells of any other whether it is the scheme or the
path that is at fault (`Address.parse_follows_grammar`). As to values, an address is read back from
its text exactly if it is well formed (`Address.text_read_back`), and so is every address that is
reached from one that was read by going up, or down to a proper name (`Address.Reached`).
-/

namespace Switchboard.Address

variable {a b : Address} {url scheme path name : String} {segments : List String}
  {chars front back : List Char}

/-! ## The two halves of a text -/

/-- The text is a scheme, the mark and a path, where the scheme is not empty and holds no slash. -/
structure Splits (url scheme path : String) : Prop where
  url_eq : url = scheme ++ "://" ++ path
  scheme_ne : scheme ≠ ""
  scheme_slash : '/' ∉ scheme.toList

/-- The path has the segments, none of which is empty or holds a slash, with slashes between them and
perhaps one more behind. -/
structure Lists (path : String) (segments : List String) : Prop where
  path_eq : path = "/".intercalate segments ∨ path = "/".intercalate segments ++ "/"
  segment_ne : ∀ s ∈ segments, s ≠ ""
  segment_slash : ∀ s ∈ segments, '/' ∉ s.toList

/-- What is cut apart at the mark makes up the text. -/
theorem eq_of_cutScheme (h : cutScheme chars = some (front, back)) :
    chars = front ++ ':' :: '/' :: '/' :: back := by
  fun_induction cutScheme chars generalizing front with
  | case1 => cases h
  | case2 rest =>
    cases h
    rfl
  | case3 c rest _ ih =>
    obtain ⟨⟨scheme, path⟩, hcut, heq⟩ := Option.map_eq_some_iff.1 h
    cases heq
    rw [List.cons_append, ← ih hcut]

/-- A text is cut apart where its scheme ends. -/
theorem Splits.cut (h : Splits url scheme path) :
    cutScheme url.toList = some (scheme.toList, path.toList) := by
  rw [h.url_eq, String.toList_append, String.toList_append, List.append_assoc]
  exact cutScheme_append path.toList h.scheme_slash

/-- There is one way at most to split a text. -/
theorem Splits.unique {scheme' path' : String} (h : Splits url scheme path)
    (h' : Splits url scheme' path') : scheme = scheme' ∧ path = path' := by
  have heq := h.cut.symm.trans h'.cut
  simpa only [Option.some.injEq, Prod.mk.injEq, String.toList_inj] using heq

/-! ## The segments of a path -/

/-- One slash is dropped. -/
theorem dropSlash_append_slash (chars : List Char) : dropSlash (chars ++ ['/']) = chars := by
  rw [dropSlash, if_pos List.getLast?_concat, List.dropLast_concat]

/-- Nothing but a slash is dropped. -/
theorem eq_dropSlash_or (chars : List Char) :
    chars = dropSlash chars ∨ chars = dropSlash chars ++ ['/'] := by
  rw [dropSlash]
  split
  · next hlast =>
    obtain ⟨before, rfl⟩ := List.getLast?_eq_some_iff.1 hlast
    exact .inr (by rw [List.dropLast_concat])
  · exact .inl rfl

/-- The pieces of a path make it up again. -/
theorem intercalate_splitPath (chars : List Char) : ['/'].intercalate (splitPath chars) = chars := by
  rw [splitPath]
  split
  · next hempty =>
    rw [hempty]
    rfl
  · exact List.intercalate_splitOn '/'

/-- The pieces of a path hold no slash. -/
theorem slash_not_mem_of_mem_splitPath {piece : List Char} (h : piece ∈ splitPath chars) :
    '/' ∉ piece := by
  rw [splitPath] at h
  split at h
  · cases h
  · exact not_mem_of_mem_splitOn h

/-- The text of joined pieces, character by character. -/
theorem toList_intercalate_ofList (pieces : List (List Char)) :
    ("/".intercalate (pieces.map String.ofList)).toList = ['/'].intercalate pieces := by
  rw [String.toList_intercalate, List.map_map]
  exact congrArg _ (List.map_id'' (fun _ => String.toList_ofList) pieces)

/-- A path has segments exactly if no piece of it is empty, and the pieces are the segments. -/
theorem lists_iff : Lists path segments ↔ [] ∉ splitPath (dropSlash path.toList) ∧
    (splitPath (dropSlash path.toList)).map String.ofList = segments := by
  constructor
  · intro h
    have hsegments : ∀ s ∈ segments.map String.toList, s ≠ [] ∧ '/' ∉ s := by
      intro s hs
      obtain ⟨name, hname, rfl⟩ := List.mem_map.1 hs
      exact ⟨mt String.toList_eq_nil_iff.1 (h.segment_ne name hname), h.segment_slash name hname⟩
    have hsplit : splitPath (dropSlash path.toList) = segments.map String.toList := by
      have hback := splitPath_intercalate hsegments
      rcases h.path_eq with rfl | rfl
      · rwa [String.toList_intercalate]
      · rw [dropSlash, if_neg (getLast?_intercalate_ne hsegments)] at hback
        rw [String.toList_append, String.toList_intercalate]
        exact (congrArg splitPath (dropSlash_append_slash _)).trans hback
    refine ⟨fun hnil => (hsegments [] (hsplit ▸ hnil)).1 rfl, ?_⟩
    rw [hsplit, List.map_map]
    exact List.map_id'' (fun _ => String.ofList_toList) segments
  · rintro ⟨hnil, rfl⟩
    have hjoin := toList_intercalate_ofList (splitPath (dropSlash path.toList))
    rw [intercalate_splitPath] at hjoin
    refine ⟨?_, fun s hs => ?_, fun s hs => ?_⟩
    · rw [← String.toList_inj, ← String.toList_inj, String.toList_append, hjoin]
      exact eq_dropSlash_or path.toList
    · obtain ⟨piece, hpiece, rfl⟩ := List.mem_map.1 hs
      rintro hempty
      rw [String.ofList_eq_empty_iff] at hempty
      exact hnil (hempty ▸ hpiece)
    · obtain ⟨piece, hpiece, rfl⟩ := List.mem_map.1 hs
      rw [String.toList_ofList]
      exact slash_not_mem_of_mem_splitPath hpiece

/-! ## What is read -/

/-- A text without a proper scheme is no address. -/
theorem parse_of_not_splits (h : ∀ scheme path, ¬ Splits url scheme path) :
    parse url = .error (.invalidUrl url) := by
  rw [parse]
  split
  · rfl
  · next front back hcut =>
    refine if_pos (Decidable.byContradiction fun hscheme => ?_)
    -- The two parts would be a scheme and a path.
    rw [not_or] at hscheme
    refine h (String.ofList front) (String.ofList back) ⟨?_, ?_, ?_⟩
    · rw [← String.toList_inj, eq_of_cutScheme hcut]
      simp
    · rw [Ne, String.ofList_eq_empty_iff]
      exact hscheme.1
    · rw [String.toList_ofList]
      exact hscheme.2

/-- Behind a proper scheme only the path counts. -/
theorem Splits.parse_eq (h : Splits url scheme path) :
    parse url = if [] ∈ splitPath (dropSlash path.toList) then .error (.emptySegment url)
      else .ok ⟨scheme, (splitPath (dropSlash path.toList)).map String.ofList⟩ := by
  have hscheme : ¬(scheme.toList = [] ∨ '/' ∈ scheme.toList) :=
    not_or.2 ⟨mt String.toList_eq_nil_iff.1 h.scheme_ne, h.scheme_slash⟩
  simp only [parse, h.cut, if_neg hscheme, String.ofList_toList]

/-- Behind a proper scheme, an address is read if the path has segments. -/
theorem Splits.parse_eq_ok_iff (h : Splits url scheme path) :
    parse url = .ok a ↔ scheme = a.scheme ∧ Lists path a.segments := by
  obtain ⟨scheme', segments⟩ := a
  rw [h.parse_eq, lists_iff]
  split
  · next hnil => simp [hnil]
  · next hnil => simp [hnil]

/-- Behind a proper scheme, the error is always that of an empty segment. -/
theorem Splits.parse_eq_error_iff {e : StoreError} (h : Splits url scheme path) :
    parse url = .error e ↔ e = .emptySegment url ∧ ∀ segments, ¬ Lists path segments := by
  simp only [h.parse_eq, lists_iff]
  split
  · next hnil => simp [hnil, eq_comm]
  · next hnil => simp [hnil]

/-- The spellings of an address: its parts are proper, and the text is its own or has one slash more
behind. -/
theorem splits_and_lists_iff :
    (∃ path, Splits url a.scheme path ∧ Lists path a.segments) ↔
      a.WellFormed ∧ (url = a.text ∨ url = a.text ++ "/") := by
  constructor
  · rintro ⟨path, hsplits, hlists⟩
    refine ⟨⟨mt String.toList_eq_nil_iff.1 hsplits.scheme_ne, hsplits.scheme_slash,
      fun s hs => mt String.toList_eq_nil_iff.1 (hlists.segment_ne s hs), hlists.segment_slash⟩, ?_⟩
    rw [hsplits.url_eq, text]
    rcases hlists.path_eq with rfl | rfl
    · exact .inl rfl
    · exact .inr String.append_assoc.symm
  · rintro ⟨h, hurl⟩
    have hne : a.scheme ≠ "" := mt String.toList_eq_nil_iff.2 h.scheme_ne
    have hsegment : ∀ s ∈ a.segments, s ≠ "" :=
      fun s hs => mt String.toList_eq_nil_iff.2 (h.segment_ne s hs)
    rcases hurl with rfl | rfl
    · exact ⟨_, ⟨rfl, hne, h.scheme_slash⟩, ⟨.inl rfl, hsegment, h.segment_slash⟩⟩
    · exact ⟨_, ⟨String.append_assoc, hne, h.scheme_slash⟩,
        ⟨.inr rfl, hsegment, h.segment_slash⟩⟩

/-- **The grammar of addresses.** An address is read from a text exactly if the text is its scheme,
the mark and a path with its segments. That is so for its own text, and for that text with one slash
more behind, if its parts are proper, and for no other text. If a text is no address, the error is
that of an invalid text if there is no proper scheme, and that of an empty segment if there is one. -/
theorem parse_follows_grammar (url : String) :
    (∀ a, parse url = .ok a ↔ ∃ path, Splits url a.scheme path ∧ Lists path a.segments) ∧
    (∀ a, parse url = .ok a ↔ a.WellFormed ∧ (url = a.text ∨ url = a.text ++ "/")) ∧
    (∀ e, parse url = .error e ↔
      (e = .invalidUrl url ∧ ∀ scheme path, ¬ Splits url scheme path) ∨
      (e = .emptySegment url ∧ ∃ scheme path, Splits url scheme path ∧
        ∀ segments, ¬ Lists path segments)) := by
  have hok : ∀ a, parse url = .ok a ↔ ∃ path, Splits url a.scheme path ∧ Lists path a.segments := by
    intro a
    constructor
    · intro hread
      by_cases h : ∃ scheme path, Splits url scheme path
      · obtain ⟨scheme, path, hsplits⟩ := h
        obtain ⟨rfl, hlists⟩ := hsplits.parse_eq_ok_iff.1 hread
        exact ⟨path, hsplits, hlists⟩
      · rw [parse_of_not_splits fun scheme path hsplits => h ⟨scheme, path, hsplits⟩] at hread
        cases hread
    · rintro ⟨path, hsplits, hlists⟩
      exact hsplits.parse_eq_ok_iff.2 ⟨rfl, hlists⟩
  refine ⟨hok, fun a => (hok a).trans splits_and_lists_iff, fun e => ?_⟩
  by_cases h : ∃ scheme path, Splits url scheme path
  · obtain ⟨scheme, path, hsplits⟩ := h
    rw [hsplits.parse_eq_error_iff]
    constructor
    · rintro ⟨rfl, hlists⟩
      exact .inr ⟨rfl, scheme, path, hsplits, hlists⟩
    · rintro (⟨-, hnone⟩ | ⟨rfl, scheme', path', hsplits', hlists⟩)
      · exact absurd hsplits (hnone scheme path)
      · obtain ⟨rfl, rfl⟩ := hsplits.unique hsplits'
        exact ⟨rfl, hlists⟩
  · have hnone : ∀ scheme path, ¬ Splits url scheme path :=
      fun scheme path hsplits => h ⟨scheme, path, hsplits⟩
    rw [parse_of_not_splits hnone]
    constructor
    · rintro ⟨⟩
      exact .inl ⟨rfl, hnone⟩
    · rintro (⟨rfl, -⟩ | ⟨-, scheme, path, hsplits, -⟩)
      · rfl
      · exact absurd hsplits (hnone scheme path)

/-! ## Addresses as texts -/

/-- The parent of a well-formed address is well formed. -/
theorem WellFormed.parent (h : a.WellFormed) (hb : a.parent? = some b) : b.WellFormed := by
  rw [parent?] at hb
  split at hb
  · cases hb
  · cases hb
    exact ⟨h.scheme_ne, h.scheme_slash, fun s hs => h.segment_ne s (List.dropLast_subset _ hs),
      fun s hs => h.segment_slash s (List.dropLast_subset _ hs)⟩

/-- A child of a well-formed address is well formed if its name is proper. -/
theorem WellFormed.child (h : a.WellFormed) (hne : name ≠ "") (hslash : '/' ∉ name.toList) :
    (a.child name).WellFormed where
  scheme_ne := h.scheme_ne
  scheme_slash := h.scheme_slash
  segment_ne := by
    intro s hs
    rcases List.mem_append.1 hs with hs | hs
    · exact h.segment_ne s hs
    · rw [List.mem_singleton.1 hs]
      exact mt String.toList_eq_nil_iff.1 hne
  segment_slash := by
    intro s hs
    rcases List.mem_append.1 hs with hs | hs
    · exact h.segment_slash s hs
    · rw [List.mem_singleton.1 hs]
      exact hslash

/-- An address is read back from its text, whichever its parts are, only if it is well formed. -/
theorem parse_text_iff : parse a.text = .ok a ↔ a.WellFormed :=
  ⟨wellFormed_of_parse, parse_text⟩

/-- A value is read as an address if it is a text that is. -/
theorem ofJson?_string_eq_some_iff : ofJson? (.string url) = some a ↔ parse url = .ok a := by
  rw [ofJson?]
  cases parse url <;> simp [Except.toOption]

/-- An address that was read, or is reached from such a one by going up, or down to a name that is not
empty and holds no slash. -/
inductive Reached : Address → Prop
  | read {url : String} {a : Address} (h : parse url = .ok a) : Reached a
  | up {a b : Address} (h : Reached a) (hb : a.parent? = some b) : Reached b
  | down {a : Address} {name : String} (h : Reached a) (hne : name ≠ "")
    (hslash : '/' ∉ name.toList) : Reached (a.child name)

/-- All addresses that are reached are well formed. -/
theorem Reached.wellFormed (h : Reached a) : a.WellFormed := by
  induction h with
  | read h => exact wellFormed_of_parse h
  | up _ hb ih => exact ih.parent hb
  | down _ hne hslash ih => exact ih.child hne hslash

/-- **An address and its text.** Whichever parts an address is built from, it is read back from its
text, and from its value, exactly if it is well formed. That is so for all that is reached from an
address that was read, and of these no two have one text. -/
theorem text_read_back :
    (∀ a : Address, (parse a.text = .ok a ↔ a.WellFormed) ∧
      (ofJson? a.toJson = some a ↔ a.WellFormed)) ∧
    (∀ a, Reached a → parse a.text = .ok a) ∧
    (∀ a b, Reached a → Reached b → a.text = b.text → a = b) := by
  refine ⟨fun a => ⟨parse_text_iff, ?_⟩, fun a h => parse_text h.wellFormed, fun a b ha hb htext => ?_⟩
  · exact ofJson?_string_eq_some_iff.trans parse_text_iff
  · have hread := parse_text ha.wellFormed
    rw [htext, parse_text hb.wellFormed] at hread
    cases hread
    rfl

/-- The hall is reached from its lamp and from the root. -/
theorem hall_from_lamp_and_root :
    parse "status://hall/lamp/" = .ok ⟨"status", ["hall", "lamp"]⟩ ∧
    parse "status://" = .ok ⟨"status", []⟩ ∧
    parse (text ⟨"status", ["hall"]⟩) = .ok ⟨"status", ["hall"]⟩ ∧
    (⟨"status", ["hall"]⟩ : Address) = child ⟨"status", []⟩ "hall" := by
  have hlamp : parse "status://hall/lamp/" = .ok ⟨"status", ["hall", "lamp"]⟩ := by cbv
  have hroot : parse "status://" = .ok ⟨"status", []⟩ := by cbv
  have hup : Reached ⟨"status", ["hall"]⟩ := .up (.read hlamp) rfl
  have hdown : Reached (child ⟨"status", []⟩ "hall") := .down (.read hroot) (by decide) (by decide)
  exact ⟨hlamp, hroot, text_read_back.2.1 _ hup, text_read_back.2.2 _ _ hup hdown rfl⟩

end Switchboard.Address
