import Mathlib
import Switchboard.Precondition
import Switchboard.Proofs.Decimal.Spelling
/-!
# How a precondition is spelled

A precondition has a word of its own, or is a count in decimal digits, where a plus sign may stand in
front, and zeros (`Precondition.Spells`). The value of digits is their positional one
(`Numeral.value`), and there is a count of them as long as that is below `2 ^ 64`. Nothing else is
read, and what is written is read back, both as text and as a JSON value
(`Precondition.reads_words_and_counts`).
-/

namespace Switchboard

/-! ## Counts in digits -/

namespace Numeral

variable {cs digits : List Char} {n : Nat} {count : UInt64}

/-- The number that decimal digits stand for: the last one counts ones, the one before it tens. -/
def value (digits : List Char) : Nat :=
  Nat.ofDigits 10 (digits.reverse.map fun c => c.toNat - '0'.toNat)

/-- A digit in front counts as many as there are numbers of the digits behind it. -/
theorem value_cons (c : Char) (digits : List Char) :
    value (c :: digits) = 10 ^ digits.length * (c.toNat - '0'.toNat) + value digits := by
  rw [value, List.reverse_cons, List.map_append, Nat.ofDigits_append, List.length_map,
    List.length_reverse, List.map_singleton, Nat.ofDigits_singleton, Nat.add_comm]
  rfl

/-- Digits that are taken in one after the other come to their value. -/
theorem ofDigitChars_eq_value (digits : List Char) : Nat.ofDigitChars 10 digits 0 = value digits := by
  induction digits with
  | nil => rfl
  | cons c digits ih =>
    rw [Nat.ofDigitChars_cons, Nat.ofDigitChars_eq_ofDigitChars_zero, ih, value_cons, Nat.mul_zero,
      Nat.zero_add]

/-- A number is read from one or more digits, and is their value. -/
theorem read?_eq_some_iff : read? cs = some n ↔ cs ≠ [] ∧ AreDigits cs ∧ value cs = n := by
  have hall : cs.all Char.isDigit = true ↔ AreDigits cs := List.all_eq_true
  rw [read?, ofDigitChars_eq_value]
  split
  · next h => simp [h.1, hall.1 h.2]
  · next h => exact ⟨nofun, fun hread => absurd ⟨hread.1, hall.2 hread.2.1⟩ h⟩

/-- A number that was read is a count if it is small enough. -/
theorem toCount_eq_some_iff :
    (if n < UInt64.size then some (UInt64.ofNat n) else none) = some count ↔ n = count.toNat := by
  split
  · next hlt =>
    rw [Option.some.injEq, ← UInt64.toNat_inj, UInt64.toNat_ofNat_of_lt' hlt]
  · next hge =>
    have hcount := count.toNat_lt_size
    refine ⟨nofun, fun h => ?_⟩
    omega

/-- A count is read from digits with or without a plus sign in front, and is their value. -/
theorem readCount?_eq_some_iff : readCount? cs = some count ↔
    ∃ sign digits, cs = sign ++ digits ∧ (sign = [] ∨ sign = ['+']) ∧
      digits ≠ [] ∧ AreDigits digits ∧ value digits = count.toNat := by
  constructor
  · intro h
    simp only [readCount?] at h
    split at h
    · next n hread =>
      obtain rfl := toCount_eq_some_iff.1 h
      split at hread
      · next rest => exact ⟨['+'], rest, rfl, .inr rfl, read?_eq_some_iff.1 hread⟩
      · exact ⟨[], cs, rfl, .inl rfl, read?_eq_some_iff.1 hread⟩
    · cases h
  · rintro ⟨sign, digits, rfl, hsign, hread⟩
    have hvalue : read? digits = some count.toNat := read?_eq_some_iff.2 hread
    rcases hsign with rfl | rfl
    · have hplus : ∀ rest, digits = '+' :: rest → False := by
        rintro rest rfl
        exact absurd (hread.2.1 '+' List.mem_cons_self) (by decide)
      rw [List.nil_append, readCount?.eq_2 _ hplus, hvalue]
      exact toCount_eq_some_iff.2 rfl
    · rw [List.singleton_append, readCount?.eq_1, hvalue]
      exact toCount_eq_some_iff.2 rfl

/-- The value of the digits of a number is the number. -/
theorem value_write (n : Nat) : value (write n) = n :=
  (ofDigitChars_eq_value _).symm.trans Nat.ofDigitChars_ten_toDigits

end Numeral

namespace Precondition

open Numeral

variable {text : String} {p : Precondition} {e : StoreError} {j : Json}

/-! ## As text -/

/-- The text is the word of the precondition, or one or more decimal digits, with or without a plus
sign in front, whose value is the revision. -/
inductive Spells : String → Precondition → Prop
  | unchecked : Spells "unchecked" .unchecked
  | mustNotExist : Spells "must_not_exist" .mustNotExist
  | exact {sign digits : List Char} {revision : UInt64} (hsign : sign = [] ∨ sign = ['+'])
    (hne : digits ≠ []) (hdigits : AreDigits digits) (hvalue : value digits = revision.toNat) :
    Spells (String.ofList (sign ++ digits)) (.exact revision)

/-- A text is read as one of the words or as a count, and otherwise is reported. -/
theorem parse_cases (text : String) :
    (∃ p, parse text = .ok p ∧ Spells text p) ∨ parse text = .error (.invalidRevision text) := by
  rw [parse]
  split
  · next h => exact .inl ⟨_, rfl, h ▸ .unchecked⟩
  · split
    · next h => exact .inl ⟨_, rfl, h ▸ .mustNotExist⟩
    · cases hcount : readCount? text.toList with
      | none => exact .inr rfl
      | some revision =>
        obtain ⟨sign, digits, htext, hsign, hne, hdigits, hvalue⟩ := readCount?_eq_some_iff.1 hcount
        refine .inl ⟨_, rfl, ?_⟩
        rw [← String.ofList_toList (s := text), htext]
        exact .exact hsign hne hdigits hvalue

/-- What a text spells is read. -/
theorem Spells.parse_eq (h : Spells text p) : parse text = .ok p := by
  cases h with
  | unchecked => rfl
  | mustNotExist => rfl
  | @exact sign digits revision hsign hne hdigits hvalue =>
    have hcount : readCount? (String.ofList (sign ++ digits)).toList = some revision := by
      rw [String.toList_ofList]
      exact readCount?_eq_some_iff.2 ⟨sign, digits, rfl, hsign, hne, hdigits, hvalue⟩
    -- The words are no counts.
    have hword : ∀ word, readCount? word.toList = none → String.ofList (sign ++ digits) ≠ word := by
      rintro word hnone rfl
      rw [hnone] at hcount
      cases hcount
    rw [parse, if_neg (hword "unchecked" (by decide)), if_neg (hword "must_not_exist" (by decide)),
      hcount]

theorem parse_eq_ok_iff : parse text = .ok p ↔ Spells text p := by
  refine ⟨fun h => ?_, Spells.parse_eq⟩
  rcases parse_cases text with ⟨q, hq, hspells⟩ | herror
  · rw [hq] at h
    cases h
    exact hspells
  · rw [herror] at h
    cases h

theorem parse_eq_error_iff :
    parse text = .error e ↔ (∀ p, ¬ Spells text p) ∧ e = .invalidRevision text := by
  rcases parse_cases text with ⟨q, hq, hspells⟩ | herror
  · rw [hq]
    exact ⟨nofun, fun h => absurd hspells (h.1 q)⟩
  · rw [herror]
    refine ⟨?_, fun h => by rw [h.2]⟩
    rintro ⟨⟩
    refine ⟨fun p hspells => ?_, rfl⟩
    rw [hspells.parse_eq] at herror
    cases herror

/-- A precondition is read back from its text. -/
theorem parse_text (p : Precondition) : parse p.text = .ok p := by
  cases p with
  | unchecked => rfl
  | mustNotExist => rfl
  | exact revision =>
    exact Spells.parse_eq
      (.exact (.inl rfl) Nat.toDigits_ne_nil (areDigits_write _) (value_write _))

/-! ## As a JSON value -/

/-- A whole number in range that is not negative is a count. -/
theorem whole_eq_ofCount {i : Int} (hi : InWordRange i) (hpos : 0 ≤ i) :
    JsonNumber.whole i hi = .ofCount (UInt64.ofNat i.toNat) := by
  have hlt : i.toNat < UInt64.size := by
    have := hi.2
    change i.toNat < 0x10000000000000000
    omega
  simp only [JsonNumber.ofCount, JsonNumber.whole.injEq, UInt64.toNat_ofNat_of_lt' hlt]
  omega

/-- A count in JSON is read as a revision. -/
theorem ofJson?_ofCount (revision : UInt64) :
    ofJson? (.ofCount revision) = some (.exact revision) := by
  simp only [Json.ofCount, JsonNumber.ofCount, ofJson?]
  rw [if_pos (Int.natCast_nonneg _), Int.toNat_natCast, UInt64.ofNat_toNat]

/-- A precondition is read from the counts in JSON, and from what is read as text. -/
theorem ofJson?_eq_some_iff : ofJson? j = some p ↔
    (∃ revision, j = .ofCount revision ∧ p = .exact revision) ∨
    (∃ text, j = .string text ∧ parse text = .ok p) := by
  constructor
  · intro h
    rw [ofJson?.eq_def] at h
    split at h
    · next i hi =>
      split at h
      · next hpos =>
        cases h
        exact .inl ⟨_, congrArg Json.number (whole_eq_ofCount hi hpos), rfl⟩
      · cases h
    · next text =>
      refine .inr ⟨text, rfl, ?_⟩
      cases hread : parse text with
      | error e =>
        rw [hread] at h
        cases h
      | ok q =>
        rw [hread] at h
        cases h
        rfl
    · cases h
  · rintro (⟨revision, rfl, rfl⟩ | ⟨text, rfl, hread⟩)
    · exact ofJson?_ofCount revision
    · rw [ofJson?, hread]
      rfl

/-- A precondition is read back from its JSON value. -/
theorem ofJson?_toJson (p : Precondition) : ofJson? p.toJson = some p := by
  cases p with
  | unchecked => exact ofJson?_eq_some_iff.2 (.inr ⟨_, rfl, parse_text unchecked⟩)
  | mustNotExist => exact ofJson?_eq_some_iff.2 (.inr ⟨_, rfl, parse_text mustNotExist⟩)
  | exact revision => exact ofJson?_ofCount revision

/-- **The spellings of a precondition.** A text is read as a precondition exactly if it is the word of
it or a count in digits, and every other text is reported as it is. Text and JSON value of a
precondition are read back. A JSON value is read exactly if it is a count of 64 bits or a text that
is read, and as the same precondition. -/
theorem reads_words_and_counts :
    (∀ text p, parse text = .ok p ↔ Spells text p) ∧
    (∀ text e, parse text = .error e ↔ (∀ p, ¬ Spells text p) ∧ e = .invalidRevision text) ∧
    (∀ p, parse p.text = .ok p ∧ ofJson? p.toJson = some p) ∧
    (∀ j p, ofJson? j = some p ↔
      (∃ revision, j = .ofCount revision ∧ p = .exact revision) ∨
      (∃ text, j = .string text ∧ parse text = .ok p)) :=
  ⟨fun _ _ => parse_eq_ok_iff, fun _ _ => parse_eq_error_iff,
    fun p => ⟨parse_text p, ofJson?_toJson p⟩, fun _ _ => ofJson?_eq_some_iff⟩

end Precondition

end Switchboard
