import Switchboard.Proofs.Json.Doubles
import Switchboard.Proofs.Json.Ordered
import Switchboard.Proofs.Json.Strings
/-!
# JSON text read back

The text of a value is read back as the value, but for doubles that come back as their neighbour
(`Json.reread`), if not too many arrays and objects are nested into each other; otherwise it is
refused (`Json.parse_text`).
-/

namespace Switchboard

/-! ## The value that comes back -/

/-- The number that the text of a number stands for. -/
def JsonNumber.reread : JsonNumber → JsonNumber
  | whole i inRange => whole i inRange
  | double x => double x.reread

/-- The number is whole, or a double with few digits and a small power of ten. -/
def JsonNumber.IsShort : JsonNumber → Prop
  | whole _ _ => True
  | double x => x.IsShort

theorem JsonNumber.reread_eq {n : JsonNumber} (h : n.IsShort) : n.reread = n := by
  cases n with
  | whole i inRange => rfl
  | double x => exact congrArg double (Double.reread_eq h)

namespace Json

mutual
/-- The value that the text of a value stands for. -/
def reread : Json → Json
  | .null => .null
  | .bool b => .bool b
  | .number n => .number n.reread
  | .string s => .string s
  | .array items => .array (rereadItems items)
  | .object fields => .object (rereadFields fields)

/-- `reread` item by item. -/
def rereadItems : List Json → List Json
  | [] => []
  | x :: xs => reread x :: rereadItems xs

/-- `reread` field by field. -/
def rereadFields : List (String × Json) → List (String × Json)
  | [] => []
  | (key, x) :: xs => (key, reread x) :: rereadFields xs
end

mutual
/-- All numbers in the value are short. -/
def IsShort : Json → Prop
  | .null | .bool _ | .string _ => True
  | .number n => n.IsShort
  | .array items => AreShortItems items
  | .object fields => AreShortFields fields

/-- `IsShort` for every item. -/
def AreShortItems : List Json → Prop
  | [] => True
  | x :: xs => IsShort x ∧ AreShortItems xs

/-- `IsShort` for the value of every field. -/
def AreShortFields : List (String × Json) → Prop
  | [] => True
  | (_, x) :: xs => IsShort x ∧ AreShortFields xs
end

mutual
/-- A value with short numbers comes back as it was. -/
theorem reread_eq : ∀ {v : Json}, v.IsShort → v.reread = v
  | .null, _ | .bool _, _ | .string _, _ => by rw [reread]
  | .number n, h => by rw [reread, n.reread_eq h]
  | .array items, h => by rw [reread, rereadItems_eq h]
  | .object fields, h => by rw [reread, rereadFields_eq h]

theorem rereadItems_eq : ∀ {items : List Json}, AreShortItems items → rereadItems items = items
  | [], _ => by rw [rereadItems]
  | x :: xs, h => by rw [rereadItems, reread_eq h.1, rereadItems_eq h.2]

theorem rereadFields_eq :
    ∀ {fields : List (String × Json)}, AreShortFields fields → rereadFields fields = fields
  | [], _ => by rw [rereadFields]
  | (key, x) :: xs, h => by rw [rereadFields, reread_eq h.1, rereadFields_eq h.2]
end

/-- The keys are the same. -/
theorem keys_rereadFields (fields : List (String × Json)) :
    (rereadFields fields).map Prod.fst = fields.map Prod.fst := by
  induction fields with
  | nil => rfl
  | cons field rest ih => rw [rereadFields, List.map_cons, List.map_cons, ih]

/-- So they are still in order. -/
theorem ascending_rereadFields {fields : List (String × Json)} (h : Keyed.Ascending fields) :
    Keyed.Ascending (rereadFields fields) := by
  rwa [Keyed.Ascending, keys_rereadFields]

/-! ## Single steps of reading -/

variable {rest cs : List Char} {fuel depth : Nat} {c : Char} {first : Json} {fault : JsonFault}

theorem isSpace_of_isDigit (h : c.isDigit = true) : isSpace c = false := by
  rw [isSpace]
  simp only [Bool.or_eq_false_iff, decide_eq_false_iff_not]
  refine ⟨⟨⟨?_, ?_⟩, ?_⟩, ?_⟩ <;>
  · rintro rfl
    exact absurd h (by decide)

theorem skipSpace_cons (h : isSpace c = false) (cs : List Char) : skipSpace (c :: cs) = c :: cs := by
  rw [skipSpace, List.dropWhile_cons_of_neg]
  simp [h]

theorem value_minus (fuel depth : Nat) (cs : List Char) :
    value (fuel + 1) depth ('-' :: cs) = (unsigned true cs).map fun p => (.number p.1, p.2) := by
  have hskip : skipSpace ('-' :: cs) = '-' :: cs := skipSpace_cons (by decide) cs
  simp only [value, hskip]
  cases unsigned true cs <;> rfl

theorem value_digit (h : c.isDigit = true) (fuel depth : Nat) (cs : List Char) :
    value (fuel + 1) depth (c :: cs) =
      (unsigned false (c :: cs)).map fun p => (.number p.1, p.2) := by
  have hne : ∀ d : Char, d.isDigit = false → c ≠ d := by
    rintro d hd rfl
    rw [h] at hd
    cases hd
  rw [value, skipSpace_cons (isSpace_of_isDigit h)]
  split
  · next heq => cases heq
  iterate 7
    · next heq => exact absurd (List.cons.inj heq).1 (hne _ (by decide))
  · next heq =>
    cases heq
    rw [if_pos h]
    cases unsigned false (c :: cs) <;> rfl

/-- A word is read as a whole. -/
theorem word_append (v : Json) (letters rest : List Char) :
    word v letters (letters ++ rest) = .ok (v, rest) := by
  induction letters with
  | nil => rfl
  | cons c letters ih => rw [List.cons_append, word, if_pos rfl, ih]

theorem value_null (fuel depth : Nat) (rest : List Char) :
    value (fuel + 1) depth ('n' :: (['u', 'l', 'l'] ++ rest)) = .ok (.null, rest) := by
  have hskip := skipSpace_cons (c := 'n') (by decide) (['u', 'l', 'l'] ++ rest)
  simp only [value, hskip, word_append]

theorem value_true (fuel depth : Nat) (rest : List Char) :
    value (fuel + 1) depth ('t' :: (['r', 'u', 'e'] ++ rest)) = .ok (.bool true, rest) := by
  have hskip := skipSpace_cons (c := 't') (by decide) (['r', 'u', 'e'] ++ rest)
  simp only [value, hskip, word_append]

theorem value_false (fuel depth : Nat) (rest : List Char) :
    value (fuel + 1) depth ('f' :: (['a', 'l', 's', 'e'] ++ rest)) = .ok (.bool false, rest) := by
  have hskip := skipSpace_cons (c := 'f') (by decide) (['a', 'l', 's', 'e'] ++ rest)
  simp only [value, hskip, word_append]

theorem value_quote (fuel depth : Nat) (chars rest : List Char) :
    value (fuel + 1) depth ('"' :: (chars.flatMap escapeChar ++ '"' :: rest)) =
      .ok (.string (String.ofList chars), rest) := by
  have hskip := skipSpace_cons (c := '"') (by decide) (chars.flatMap escapeChar ++ '"' :: rest)
  simp only [value, hskip, stringTail_flatMap]
  rfl

theorem value_bracket_zero (fuel : Nat) (cs : List Char) :
    value (fuel + 1) 0 ('[' :: cs) = .error .grammar := by
  have hskip : skipSpace ('[' :: cs) = '[' :: cs := skipSpace_cons (by decide) cs
  simp only [value, hskip]

theorem value_bracket_bracket (fuel depth : Nat) (rest : List Char) :
    value (fuel + 1) (depth + 1) ('[' :: ']' :: rest) = .ok (.array [], rest) := by
  have hskip : skipSpace ('[' :: ']' :: rest) = '[' :: ']' :: rest := skipSpace_cons (by decide) _
  have hclose : skipSpace (']' :: rest) = ']' :: rest := skipSpace_cons (by decide) rest
  simp only [value, hskip, hclose]

theorem value_bracket (hspace : isSpace c = false) (hclose : c ≠ ']') (fuel depth : Nat)
    (cs : List Char) :
    value (fuel + 1) (depth + 1) ('[' :: c :: cs) =
      (items fuel depth (c :: cs)).map fun p => (.array p.1, p.2) := by
  have hskip : skipSpace ('[' :: c :: cs) = '[' :: c :: cs := skipSpace_cons (by decide) _
  simp only [value, hskip, skipSpace_cons hspace]
  split
  · next heq => exact absurd (List.cons.inj heq).1 hclose
  · next heq => cases heq
  · cases items fuel depth (c :: cs) <;> rfl

theorem value_brace_zero (fuel : Nat) (cs : List Char) :
    value (fuel + 1) 0 ('\x7b' :: cs) = .error .grammar := by
  have hskip : skipSpace ('\x7b' :: cs) = '\x7b' :: cs := skipSpace_cons (by decide) cs
  simp only [value, hskip]

theorem value_brace_brace (fuel depth : Nat) (rest : List Char) :
    value (fuel + 1) (depth + 1) ('\x7b' :: '\x7d' :: rest) = .ok (.object [], rest) := by
  have hskip : skipSpace ('\x7b' :: '\x7d' :: rest) = '\x7b' :: '\x7d' :: rest :=
    skipSpace_cons (by decide) _
  have hclose : skipSpace ('\x7d' :: rest) = '\x7d' :: rest := skipSpace_cons (by decide) rest
  simp only [value, hskip, hclose]

theorem value_brace (fuel depth : Nat) (cs : List Char) :
    value (fuel + 1) (depth + 1) ('\x7b' :: '"' :: cs) =
      (fields fuel depth ('"' :: cs)).map fun p => (ofFields p.1, p.2) := by
  have hskip : skipSpace ('\x7b' :: '"' :: cs) = '\x7b' :: '"' :: cs :=
    skipSpace_cons (by decide) _
  have hquote : skipSpace ('"' :: cs) = '"' :: cs := skipSpace_cons (by decide) cs
  simp only [value, hskip, hquote]
  split
  · next heq => exact absurd (List.cons.inj heq).1 (by decide)
  · cases fields fuel depth ('"' :: cs) <;> rfl

/-- Items go wrong where their first one does. -/
theorem items_error (h : value fuel depth cs = .error fault) :
    items (fuel + 1) depth cs = .error fault := by
  rw [items, h]
  rfl

theorem items_bracket (h : value fuel depth cs = .ok (first, ']' :: rest)) :
    items (fuel + 1) depth cs = .ok ([first], rest) := by
  have hskip : skipSpace (']' :: rest) = ']' :: rest := skipSpace_cons (by decide) rest
  simp only [items, h, bind, Except.bind, hskip]
  rfl

theorem items_comma (h : value fuel depth cs = .ok (first, ',' :: c :: rest))
    (hspace : isSpace c = false) (hclose : c ≠ ']') :
    items (fuel + 1) depth cs =
      (items fuel depth (c :: rest)).map fun p => (first :: p.1, p.2) := by
  have hskip : skipSpace (',' :: c :: rest) = ',' :: c :: rest := skipSpace_cons (by decide) _
  simp only [items, h, bind, Except.bind, hskip, skipSpace_cons hspace]
  split
  · next heq => exact absurd (List.cons.inj heq).1 hclose
  · next heq => cases heq
  · cases items fuel depth (c :: rest) <;> rfl

/-- The fields of an object, up to the value of the first one. -/
theorem fields_error {chars : List Char} (h : value fuel depth cs = .error fault) :
    fields (fuel + 1) depth ('"' :: (chars.flatMap escapeChar ++ '"' :: ':' :: cs)) =
      .error fault := by
  have hskip : skipSpace (':' :: cs) = ':' :: cs := skipSpace_cons (by decide) cs
  simp only [fields, stringTail_flatMap, bind, Except.bind, hskip, h]

theorem fields_brace {chars : List Char}
    (h : value fuel depth cs = .ok (first, '\x7d' :: rest)) :
    fields (fuel + 1) depth ('"' :: (chars.flatMap escapeChar ++ '"' :: ':' :: cs)) =
      .ok ([(String.ofList chars, first)], rest) := by
  have hskip : skipSpace (':' :: cs) = ':' :: cs := skipSpace_cons (by decide) cs
  have hskip' : skipSpace ('\x7d' :: rest) = '\x7d' :: rest := skipSpace_cons (by decide) rest
  simp only [fields, stringTail_flatMap, bind, Except.bind, hskip, h, hskip']
  rfl

theorem fields_comma {chars : List Char}
    (h : value fuel depth cs = .ok (first, ',' :: '"' :: rest)) :
    fields (fuel + 1) depth ('"' :: (chars.flatMap escapeChar ++ '"' :: ':' :: cs)) =
      (fields fuel depth ('"' :: rest)).map
        fun p => ((String.ofList chars, first) :: p.1, p.2) := by
  have hskip : skipSpace (':' :: cs) = ':' :: cs := skipSpace_cons (by decide) cs
  have hcomma : skipSpace (',' :: '"' :: rest) = ',' :: '"' :: rest :=
    skipSpace_cons (by decide) _
  have hquote : skipSpace ('"' :: rest) = '"' :: rest := skipSpace_cons (by decide) rest
  simp only [fields, stringTail_flatMap, bind, Except.bind, hskip, h, hcomma, hquote]
  cases fields fuel depth ('"' :: rest) <;> rfl

/-! ## Numbers -/

/-- The text of a double begins with a digit. -/
theorem exists_decimal_eq_cons (layout : Layout) (d : Decimal) :
    ∃ c cs, layout.decimal d = c :: cs ∧ c.isDigit = true := by
  obtain ⟨whole, fraction, p, hspells, hreads⟩ := Layout.spells_decimal layout d
  obtain ⟨c, whole, rfl⟩ := List.exists_cons_of_ne_nil hreads.front.ne_nil
  have hc := hreads.front.digits c List.mem_cons_self
  generalize layout.decimal d = text at hspells
  cases hspells <;> exact ⟨c, _, rfl, hc⟩

/-- A number is read up to what closes it. -/
theorem value_number (n : JsonNumber) (fuel depth : Nat) (hrest : Closes rest) :
    value (fuel + 1) depth (n.render ++ rest) = .ok (.number n.reread, rest) := by
  cases n with
  | whole i inRange =>
    have hread := unsigned_write inRange hrest
    rw [JsonNumber.render]
    split
    · next hneg =>
      rw [decide_eq_true hneg] at hread
      rw [List.cons_append, value_minus, hread]
      rfl
    · next hneg =>
      rw [decide_eq_false hneg] at hread
      obtain ⟨c, cs, hcons⟩ := List.exists_cons_of_ne_nil
        (show Numeral.write i.natAbs ≠ [] from Nat.toDigits_ne_nil)
      have hc := Numeral.areDigits_write i.natAbs c (hcons ▸ List.mem_cons_self)
      rw [hcons, List.cons_append] at hread ⊢
      rw [value_digit hc, hread]
      rfl
  | double x =>
    have hread := unsigned_double x hrest
    rw [JsonNumber.render, Layout.double]
    split
    · next hneg =>
      rw [hneg] at hread
      rw [List.cons_append, value_minus, hread]
      rfl
    · next hneg =>
      rw [Bool.not_eq_true] at hneg
      rw [hneg] at hread
      obtain ⟨c, cs, hcons, hc⟩ :=
        exists_decimal_eq_cons JsonNumber.layout (Double.shortest x.units)
      rw [hcons, List.cons_append] at hread ⊢
      rw [value_digit hc, hread]
      rfl

/-- The text of a number begins with a sign or a digit. -/
theorem exists_number_eq_cons (n : JsonNumber) :
    ∃ c cs, n.render = c :: cs ∧ (c = '-' ∨ c.isDigit = true) := by
  cases n with
  | whole i inRange =>
    rw [JsonNumber.render]
    split
    · exact ⟨_, _, rfl, .inl rfl⟩
    · obtain ⟨c, cs, hcons⟩ := List.exists_cons_of_ne_nil
        (show Numeral.write i.natAbs ≠ [] from Nat.toDigits_ne_nil)
      exact ⟨c, cs, hcons, .inr (Numeral.areDigits_write i.natAbs c (hcons ▸ List.mem_cons_self))⟩
  | double x =>
    rw [JsonNumber.render, Layout.double]
    split
    · exact ⟨_, _, rfl, .inl rfl⟩
    · obtain ⟨c, cs, hcons, hc⟩ :=
        exists_decimal_eq_cons JsonNumber.layout (Double.shortest x.units)
      exact ⟨c, cs, hcons, .inr hc⟩

/-! ## Values -/

/-- The text of a value begins with no blank and with no closing bracket. -/
theorem exists_render_eq_cons (v : Json) :
    ∃ c cs, v.render = c :: cs ∧ isSpace c = false ∧ c ≠ ']' := by
  match v with
  | .null | .bool true | .bool false | .string _ | .array [] | .array (_ :: _) | .object []
  | .object (_ :: _) => exact ⟨_, _, rfl, by decide, by decide⟩
  | .number n =>
    obtain ⟨c, cs, hcons, hc⟩ := exists_number_eq_cons n
    refine ⟨c, cs, hcons, ?_⟩
    rcases hc with rfl | hc
    · decide
    · refine ⟨isSpace_of_isDigit hc, ?_⟩
      rintro rfl
      exact absurd hc (by decide)

mutual
/-- A value is read up to what closes it, if there is room for its depth. -/
theorem value_render : ∀ (v : Json) (fuel depth : Nat) (rest : List Char), v.Ordered →
    2 * v.render.length ≤ fuel + 1 → Closes rest →
    value (fuel + 1) depth (v.render ++ rest) =
      if v.depth ≤ depth then .ok (v.reread, rest) else .error .grammar
  | .null, fuel, depth, rest, _, _, _ => by
    rw [Json.depth, if_pos (Nat.zero_le _), reread]
    exact value_null fuel depth rest
  | .bool true, fuel, depth, rest, _, _, _ => by
    rw [Json.depth, if_pos (Nat.zero_le _), reread]
    exact value_true fuel depth rest
  | .bool false, fuel, depth, rest, _, _, _ => by
    rw [Json.depth, if_pos (Nat.zero_le _), reread]
    exact value_false fuel depth rest
  | .number n, fuel, depth, rest, _, _, hrest => by
    rw [render, value_number n fuel depth hrest, Json.depth, if_pos (Nat.zero_le _), reread]
  | .string s, fuel, depth, rest, _, _, _ => by
    rw [render, renderString, Json.depth, if_pos (Nat.zero_le _), reread, List.cons_append,
      List.cons_append, List.append_assoc]
    exact (value_quote fuel depth s.toList rest).trans (by rw [String.ofList_toList])
  | .array [], fuel, 0, rest, _, _, _ => value_bracket_zero fuel (']' :: rest)
  | .array [], fuel, depth + 1, rest, _, _, _ => by
    rw [Json.depth, depthItems, if_pos (Nat.succ_le_succ (Nat.zero_le depth)), reread, rereadItems]
    exact value_bracket_bracket fuel depth rest
  | .array (x :: xs), fuel, 0, rest, _, _, _ => by
    rw [render, List.cons_append, List.cons_append, value_bracket_zero, Json.depth,
      if_neg (Nat.not_succ_le_zero _)]
  | .array (x :: xs), fuel, depth + 1, rest, hordered, hfuel, hrest => by
    obtain ⟨c, cs, hcons, hspace, hclose⟩ := exists_render_eq_cons x
    have hlength : 2 * (x.render.length + (renderItems xs).length + 1) ≤ fuel + 1 := by
      rwa [render, List.length_append, List.length_cons, Nat.add_right_comm] at hfuel
    obtain ⟨fuel, rfl⟩ : ∃ f, fuel = f + 1 := ⟨fuel - 1, by omega⟩
    have hread := items_render x xs fuel depth rest hordered.1 hordered.2 (by omega)
    rw [render, List.cons_append, List.cons_append, Json.depth, depthItems]
    rw [hcons, List.cons_append, List.cons_append] at hread ⊢
    rw [value_bracket hspace hclose, hread]
    simp only [Nat.add_le_add_iff_right]
    split <;> rfl
  | .object [], fuel, 0, rest, _, _, _ => value_brace_zero fuel ('\x7d' :: rest)
  | .object [], fuel, depth + 1, rest, _, _, _ => by
    rw [Json.depth, depthFields, if_pos (Nat.succ_le_succ (Nat.zero_le depth)), reread,
      rereadFields]
    exact value_brace_brace fuel depth rest
  | .object ((key, x) :: xs), fuel, 0, rest, _, _, _ => by
    rw [render, List.cons_append, List.cons_append, List.cons_append, value_brace_zero, Json.depth,
      if_neg (Nat.not_succ_le_zero _)]
  | .object ((key, x) :: xs), fuel, depth + 1, rest, ⟨hascending, hx, hxs⟩, hfuel, hrest => by
    have hlength : 2 * (x.render.length + (renderFields xs).length + 1) ≤ fuel + 1 := by
      rw [render] at hfuel
      simp only [List.length_append, List.length_cons] at hfuel
      omega
    obtain ⟨fuel, rfl⟩ : ∃ f, fuel = f + 1 := ⟨fuel - 1, by omega⟩
    have hread := fields_render key x xs fuel depth rest hx hxs (by omega)
    have hobject : ofFields (rereadFields ((key, x) :: xs)) =
        .object (rereadFields ((key, x) :: xs)) :=
      congrArg Json.object (Keyed.ofList_eq (ascending_rereadFields hascending))
    rw [renderString] at hread
    simp only [List.cons_append] at hread
    rw [render, renderString, Json.depth, depthFields, reread]
    simp only [List.cons_append, Nat.add_le_add_iff_right]
    rw [value_brace, hread]
    split
    · rw [← hobject]
      rfl
    · rfl
termination_by _ fuel => fuel

/-- `value_render` for the items of an array. -/
theorem items_render : ∀ (x : Json) (xs : List Json) (fuel depth : Nat) (rest : List Char),
    x.Ordered → OrderedItems xs → 2 * (x.render.length + (renderItems xs).length) ≤ fuel + 1 →
    items (fuel + 1) depth (x.render ++ renderItems xs ++ rest) =
      if max x.depth (depthItems xs) ≤ depth then .ok (rereadItems (x :: xs), rest)
      else .error .grammar
  | x, [], fuel, depth, rest, hx, _, hfuel => by
    rw [renderItems, List.length_singleton] at hfuel
    obtain ⟨fuel, rfl⟩ : ∃ f, fuel = f + 1 := ⟨fuel - 1, by omega⟩
    have hread := value_render x fuel depth (']' :: rest) hx (by omega) (closes_bracket rest)
    rw [renderItems, List.append_assoc, List.singleton_append, depthItems, Nat.max_zero]
    split at hread
    · next hdepth =>
      rw [if_pos hdepth, items_bracket hread]
      rfl
    · next hdepth => rw [if_neg hdepth, items_error hread]
  | x, y :: ys, fuel, depth, rest, hx, hxs, hfuel => by
    obtain ⟨c, cs, hcons, hspace, hclose⟩ := exists_render_eq_cons y
    rw [renderItems, List.length_append, List.length_cons] at hfuel
    obtain ⟨fuel, rfl⟩ : ∃ f, fuel = f + 1 := ⟨fuel - 1, by omega⟩
    have hread := value_render x fuel depth (',' :: (y.render ++ renderItems ys ++ rest)) hx
      (by omega) (closes_comma _)
    have hothers := items_render y ys fuel depth rest hxs.1 hxs.2 (by omega)
    rw [renderItems, List.append_assoc, List.cons_append, List.cons_append, depthItems]
    split at hread
    · next hdepth =>
      rw [hcons, List.cons_append, List.cons_append] at hread hothers ⊢
      rw [items_comma hread hspace hclose, hothers]
      simp only [max_le_iff, hdepth, true_and]
      split <;> rfl
    · next hdepth =>
      rw [items_error hread, if_neg]
      exact fun h => hdepth ((le_max_left _ _).trans h)
termination_by _ _ fuel => fuel

/-- `value_render` for the fields of an object. -/
theorem fields_render : ∀ (key : String) (x : Json) (xs : List (String × Json))
    (fuel depth : Nat) (rest : List Char), x.Ordered → OrderedFields xs →
    2 * (x.render.length + (renderFields xs).length) ≤ fuel + 1 →
    fields (fuel + 1) depth (renderString key ++ ':' :: x.render ++ renderFields xs ++ rest) =
      if max x.depth (depthFields xs) ≤ depth then .ok (rereadFields ((key, x) :: xs), rest)
      else .error .grammar
  | key, x, [], fuel, depth, rest, hx, _, hfuel => by
    rw [renderFields, List.length_singleton] at hfuel
    obtain ⟨fuel, rfl⟩ : ∃ f, fuel = f + 1 := ⟨fuel - 1, by omega⟩
    have hread := value_render x fuel depth ('\x7d' :: rest) hx (by omega) (closes_brace rest)
    rw [renderFields, renderString, depthFields, Nat.max_zero]
    simp only [List.cons_append, List.append_assoc, List.nil_append]
    split at hread
    · next hdepth =>
      rw [if_pos hdepth, fields_brace hread, String.ofList_toList]
      rfl
    · next hdepth => rw [if_neg hdepth, fields_error hread]
  | key, x, (l, y) :: ys, fuel, depth, rest, hx, hxs, hfuel => by
    rw [renderFields] at hfuel
    simp only [List.length_append, List.length_cons] at hfuel
    obtain ⟨fuel, rfl⟩ : ∃ f, fuel = f + 1 := ⟨fuel - 1, by omega⟩
    have hread := value_render x fuel depth
      (',' :: (renderString l ++ ':' :: y.render ++ renderFields ys ++ rest)) hx (by omega)
      (closes_comma _)
    have hothers := fields_render l y ys fuel depth rest hxs.1 hxs.2 (by omega)
    rw [renderString] at hread hothers
    rw [renderFields, renderString, renderString, depthFields]
    simp only [List.cons_append, List.append_assoc, List.nil_append] at hread hothers ⊢
    split at hread
    · next hdepth =>
      rw [fields_comma hread, hothers, String.ofList_toList]
      simp only [max_le_iff, hdepth, true_and]
      split <;> rfl
    · next hdepth =>
      rw [fields_error hread, if_neg]
      exact fun h => hdepth ((le_max_left _ _).trans h)
termination_by _ _ _ fuel => fuel
end

/-- The text of a value is read back, unless too many arrays and objects are nested in it. -/
theorem parse_text {v : Json} (h : v.Ordered) :
    parse v.text = if v.depth ≤ depthLimit then .ok v.reread else .error .grammar := by
  have hread := value_render v (2 * v.render.length + 1) depthLimit [] h (by omega) closes_nil
  rw [List.append_nil] at hread
  rw [parse, parseWithin, parsePrefix, text, String.toList_ofList]
  dsimp only
  rw [hread]
  split <;> rfl

end Json

end Switchboard
