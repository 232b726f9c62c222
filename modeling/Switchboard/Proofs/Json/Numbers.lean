import Switchboard.Json.Parser
import Switchboard.Json.Printer
import Switchboard.Proofs.Decimal.Spelling
/-!
# Numbers in JSON text

A number is read up to what closes it. A whole number is read back as it was written
(`Json.unsigned_write`). Of a double the digits are read that stand in its text
(`Json.unsigned_of_spells`), all of them if they are not too many (`Json.toDouble_eq`).
-/

namespace Switchboard

open Numeral

namespace Json

variable {rest whole fraction chars text : List Char} {negative plus : Bool} {n : Nat} {p : Int}
  {d : Decimal}

/-- What may stand behind a value in a text: nothing, or what closes it or goes on to the next. -/
def Closes (rest : List Char) : Prop :=
  ∀ c ∈ rest.head?, c = ',' ∨ c = ']' ∨ c = '\x7d'

theorem closes_nil : Closes [] := nofun

theorem closes_comma (rest : List Char) : Closes (',' :: rest) := by
  rintro c ⟨⟩
  exact .inl rfl

theorem closes_bracket (rest : List Char) : Closes (']' :: rest) := by
  rintro c ⟨⟩
  exact .inr (.inl rfl)

theorem closes_brace (rest : List Char) : Closes ('\x7d' :: rest) := by
  rintro c ⟨⟩
  exact .inr (.inr rfl)

theorem Closes.noDigit (h : Closes rest) : NoDigit rest := by
  intro c hc
  rcases h c hc with rfl | rfl | rfl <;> rfl

/-! ## Digits -/

/-- A number begins with the digits in front of its point. -/
theorem unsigned_append (h : IsWhole whole) (hrest : NoDigit rest) :
    unsigned negative (whole ++ rest) = numberTail negative whole rest := by
  rw [unsigned, takeWhile_digits h.digits hrest, dropWhile_digits h.digits hrest]
  split
  · exact absurd rfl h.ne_nil
  · cases h.zero rfl
  · rfl

/-- More digits do not make a number smaller. -/
theorem le_ofDigitChars (n : Nat) (chars : List Char) : n ≤ Nat.ofDigitChars 10 chars n := by
  have hpos : 0 < 10 ^ chars.length := by positivity
  rw [Nat.ofDigitChars_eq_ofDigitChars_zero]
  exact (Nat.le_mul_of_pos_left n hpos).trans (Nat.le_add_right _ _)

/-- Digits are taken as one whole number while it is small enough. -/
theorem absorb_eq (h : Nat.ofDigitChars 10 chars n < 0x10000000000000000) :
    absorb n chars = (Nat.ofDigitChars 10 chars n, 0) := by
  induction chars generalizing n with
  | nil => rfl
  | cons c chars ih =>
    have hstep : n * 10 + digitValue c = 10 * n + (c.toNat - '0'.toNat) := by
      rw [Nat.mul_comm, digitValue]
      rfl
    rw [Nat.ofDigitChars_cons, ← hstep] at h ⊢
    rw [absorb, if_pos ((le_ofDigitChars _ chars).trans_lt h), ih h]

/-! ## Whole numbers -/

/-- Digits with nothing more behind them are a number without point. -/
theorem numberTail_closes (h : Closes rest) :
    numberTail negative whole rest = (toNumber negative whole).map (·, rest) := by
  rw [numberTail.eq_def]
  split
  · next tail => exact absurd (h '.' rfl) (by decide)
  · next c behind _ =>
    rw [if_neg]
    · cases toNumber negative whole <;> rfl
    · rcases h c rfl with rfl | rfl | rfl <;> decide
  · cases toNumber negative whole <;> rfl

/-- A whole number is read back. -/
theorem toNumber_write {i : Int} (hi : InWordRange i) :
    toNumber (i < 0) (write i.natAbs) = .ok (.whole i hi) := by
  have hdigits : Nat.ofDigitChars 10 (write i.natAbs) 0 = i.natAbs :=
    Nat.ofDigitChars_ten_toDigits
  have hsmall : i.natAbs < 0x10000000000000000 := by
    obtain ⟨hlow, hhigh⟩ := hi
    omega
  have hvalue : (if decide (i < 0) = true then -(i.natAbs : Int) else i.natAbs) = i := by
    split
    · next h => have := of_decide_eq_true h; omega
    · next h => have := mt decide_eq_true h; omega
  have hzero : ¬(decide (i < 0) = true ∧ i.natAbs = 0) := by
    rintro ⟨hneg, hnone⟩
    have := of_decide_eq_true hneg
    omega
  simp only [toNumber, absorb_eq (hdigits.symm ▸ hsmall), hdigits, hvalue, JsonNumber.ofInt?]
  rw [if_pos ⟨trivial, hzero⟩, dif_pos hi]

theorem unsigned_write {i : Int} (hi : InWordRange i) (hrest : Closes rest) :
    unsigned (i < 0) (write i.natAbs ++ rest) = .ok (.whole i hi, rest) := by
  rw [unsigned_append (isWhole_write _) hrest.noDigit, numberTail_closes hrest, toNumber_write hi]
  rfl

/-! ## Doubles -/

/-- A power of ten without sign is read back. -/
theorem power_write (n : Nat) (hrest : NoDigit rest) :
    power (write n ++ rest) = .ok (n, rest) := by
  have hdigits : Nat.ofDigitChars 10 (write n) 0 = n := Nat.ofDigitChars_ten_toDigits
  have hne : write n ≠ [] := Nat.toDigits_ne_nil
  have hfirst : ∀ c tail, write n ++ rest = c :: tail → c.isDigit = true := by
    intro c tail heq
    cases hwrite : write n with
    | nil => exact absurd hwrite hne
    | cons d digits =>
      rw [hwrite] at heq
      cases heq
      exact areDigits_write n c (hwrite ▸ List.mem_cons_self)
  unfold power
  split
  next negative digits hsign =>
  split at hsign
  · next tail heq => cases hfirst '-' tail heq
  · next tail heq => cases hfirst '+' tail heq
  · cases hsign
    simp only [takeWhile_digits (areDigits_write n) hrest,
      dropWhile_digits (areDigits_write n) hrest, if_neg hne, hdigits]
    rfl

theorem power_minus (n : Nat) (hrest : NoDigit rest) :
    power ('-' :: write n ++ rest) = .ok (-n, rest) := by
  have hdigits : Nat.ofDigitChars 10 (write n) 0 = n := Nat.ofDigitChars_ten_toDigits
  have hne : write n ≠ [] := Nat.toDigits_ne_nil
  simp only [List.cons_append, power, takeWhile_digits (areDigits_write n) hrest,
    dropWhile_digits (areDigits_write n) hrest, if_neg hne, hdigits]
  rfl

theorem power_plus (n : Nat) (hrest : NoDigit rest) :
    power ('+' :: write n ++ rest) = .ok (n, rest) := by
  have hdigits : Nat.ofDigitChars 10 (write n) 0 = n := Nat.ofDigitChars_ten_toDigits
  have hne : write n ≠ [] := Nat.toDigits_ne_nil
  simp only [List.cons_append, power, takeWhile_digits (areDigits_write n) hrest,
    dropWhile_digits (areDigits_write n) hrest, if_neg hne, hdigits]
  rfl

/-- A power of ten is read back. -/
theorem power_powerText (plus : Bool) (p : Int) (hrest : NoDigit rest) :
    power (Layout.powerText plus p ++ rest) = .ok (p, rest) := by
  unfold Layout.powerText
  split
  · next hneg =>
    have hread := power_minus p.natAbs hrest
    rwa [show -(p.natAbs : Int) = p by omega] at hread
  · next hneg =>
    have hvalue : (p.natAbs : Int) = p := by omega
    split
    · have hread := power_plus p.natAbs hrest
      rwa [hvalue] at hread
    · have hread := power_write p.natAbs hrest
      rwa [hvalue] at hread

/-- The digits of a text that is spelled so are read. -/
theorem unsigned_of_spells (h : Layout.Spells plus text whole fraction p)
    (hreads : Layout.Reads whole fraction p d) (hrest : Closes rest) :
    unsigned negative (text ++ rest) = (toDouble negative whole fraction p).map (·, rest) := by
  have hpower : NoDigit ('e' :: (Layout.powerText plus p ++ rest)) := noDigit_cons (by decide) _
  cases h with
  | point _ _ hne =>
    rw [List.append_assoc, List.cons_append,
      unsigned_append hreads.front (noDigit_cons (by decide) _), numberTail]
    simp only [takeWhile_digits hreads.behind hrest.noDigit,
      dropWhile_digits hreads.behind hrest.noDigit, if_neg hne]
    split
    · next c behind =>
      rw [if_neg]
      · cases toDouble negative whole fraction 0 <;> rfl
      · rcases hrest c rfl with rfl | rfl | rfl <;> decide
    · cases toDouble negative whole fraction 0 <;> rfl
  | pointPower _ _ _ hne =>
    rw [List.append_assoc, List.append_assoc, List.cons_append, List.cons_append,
      unsigned_append hreads.front (noDigit_cons (by decide) _), numberTail]
    simp only [takeWhile_digits hreads.behind hpower, dropWhile_digits hreads.behind hpower,
      if_neg hne, power_powerText plus p hrest.noDigit]
    rw [if_pos (.inl trivial)]
    show (toDouble negative whole fraction p >>= fun x => pure (x, rest)) = _
    cases toDouble negative whole fraction p <;> rfl
  | power =>
    rw [List.append_assoc, List.cons_append, unsigned_append hreads.front hpower, numberTail]
    · simp only [power_powerText plus p hrest.noDigit]
      rw [if_pos (.inl trivial)]
      show (toDouble negative whole [] p >>= fun x => pure (x, rest)) = _
      cases toDouble negative whole [] p <;> rfl
    · nofun

/-- The digits of a decimal number are taken as one whole number, if they are not too many, and
scaled. -/
theorem toDouble_eq {x : Double} (hreads : Layout.Reads whole fraction p d)
    (hsmall : d.digits < 0x10000000000000000)
    (hscaled : scaled negative d.digits d.exponent = some x) :
    toDouble negative whole fraction p = .ok (.double x) := by
  have hall := hreads.digits
  rw [Nat.ofDigitChars_append] at hall
  have hle : Nat.ofDigitChars 10 whole 0 ≤ d.digits := hall ▸ le_ofDigitChars _ fraction
  have hexponent : ((0 : Nat) : Int) - (fraction.length - 0 : Nat) + p = d.exponent := by
    rw [← hreads.exponent]
    omega
  have hhead := absorb_eq (hle.trans_lt hsmall)
  have hboth := absorb_eq (hall.symm ▸ hsmall)
  rw [hall] at hboth
  simp only [toDouble, hhead, hboth, hexponent, hscaled]

end Json

end Switchboard
