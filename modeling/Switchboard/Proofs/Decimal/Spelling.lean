import Mathlib
import Switchboard.Decimal.Layout
/-!
# How a decimal number is spelled

The text of a decimal number has digits in front of the point, digits behind it and a power of ten,
or not all of these (`Layout.Spells`). Which number that is, digit by digit as it stands there, is
`Layout.written`: the decimal number without the zeros at its end, but with those that stand in front
of a point, and one behind it (`Layout.spells_decimal`). It has the value of the decimal number
(`Layout.sameValue_written`).
-/

namespace Switchboard

/-! ## Digits -/

namespace Numeral

variable {chars rest whole : List Char} {n : Nat}

/-- All characters are digits. -/
def AreDigits (chars : List Char) : Prop :=
  ∀ c ∈ chars, c.isDigit = true

/-- No digit stands in front. -/
def NoDigit (rest : List Char) : Prop :=
  ∀ c ∈ rest.head?, c.isDigit = false

theorem noDigit_cons {c : Char} (h : c.isDigit = false) (rest : List Char) : NoDigit (c :: rest) := by
  rintro d ⟨⟩
  exact h

theorem areDigits_append {more : List Char} (h : AreDigits chars) (hmore : AreDigits more) :
    AreDigits (chars ++ more) :=
  fun c hc => (List.mem_append.1 hc).elim (h c) (hmore c)

theorem areDigits_zeros (n : Nat) : AreDigits (List.replicate n '0') := by
  intro c hc
  rw [List.eq_of_mem_replicate hc]
  rfl

theorem areDigits_write (n : Nat) : AreDigits (write n) :=
  fun _ hc => Nat.isDigit_of_mem_toDigits (by decide) (by decide) hc

/-- A run of digits is taken up to its end. -/
theorem takeWhile_digits (h : AreDigits chars) (hrest : NoDigit rest) :
    (chars ++ rest).takeWhile Char.isDigit = chars := by
  rw [List.takeWhile_append_of_pos h]
  cases rest with
  | nil => simp
  | cons c rest => simp [hrest c rfl]

theorem dropWhile_digits (h : AreDigits chars) (hrest : NoDigit rest) :
    (chars ++ rest).dropWhile Char.isDigit = rest := by
  rw [List.dropWhile_append_of_pos h]
  cases rest with
  | nil => rfl
  | cons c rest => simp [hrest c rfl]

/-- Digits that can stand in front of a point: at least one, and no zero in front of another. -/
structure IsWhole (whole : List Char) : Prop where
  digits : AreDigits whole
  ne_nil : whole ≠ []
  zero : whole.head? = some '0' → whole = ['0']

/-- A single digit can stand in front of a point. -/
theorem isWhole_singleton {c : Char} (h : c.isDigit = true) : IsWhole [c] where
  digits := fun _ hd => List.mem_singleton.1 hd ▸ h
  ne_nil := List.cons_ne_nil _ _
  zero := fun hzero => by rw [Option.some.inj hzero]

/-- Digits that do not begin with a zero can stand in front of a point. -/
theorem isWhole_of_head?_ne (h : AreDigits whole) (hne : whole ≠ [])
    (hzero : whole.head? ≠ some '0') : IsWhole whole :=
  ⟨h, hne, fun h => absurd h hzero⟩

/-- A whole number other than zero does not begin with a zero. -/
theorem head?_write_ne (h : n ≠ 0) : (write n).head? ≠ some '0' := by
  induction n using Nat.strongRecOn with
  | ind n ih =>
    rw [write, Nat.toDigits_eq_if (by decide)]
    split
    · interval_cases n <;> simp_all
    · rw [List.head?_append_of_ne_nil _ Nat.toDigits_ne_nil]
      exact ih (n / 10) (by omega) (by omega)

theorem isWhole_write (n : Nat) : IsWhole (write n) := by
  by_cases hn : n = 0
  · rw [hn]
    exact isWhole_singleton rfl
  · exact isWhole_of_head?_ne (areDigits_write n) Nat.toDigits_ne_nil (head?_write_ne hn)

/-- The digits of a whole number without the zeros at the end. -/
def trimmed (n : Nat) : List Char :=
  (write n).rdropWhile (· = '0')

/-- How many zeros stand at the end of a whole number. -/
def zeros (n : Nat) : Nat :=
  ((write n).rtakeWhile (· = '0')).length

theorem write_eq (n : Nat) : write n = trimmed n ++ List.replicate (zeros n) '0' := by
  have hzeros : (write n).rtakeWhile (· = '0') = List.replicate (zeros n) '0' :=
    List.eq_replicate_of_mem fun c hc => by simpa using List.mem_rtakeWhile_imp hc
  rw [← hzeros]
  exact List.rdropWhile_append_rtakeWhile.symm

theorem ofDigitChars_trimmed (n : Nat) :
    Nat.ofDigitChars 10 (trimmed n) 0 * 10 ^ zeros n = n := by
  have hvalue : Nat.ofDigitChars 10 (write n) 0 = n := Nat.ofDigitChars_ten_toDigits
  rw [write_eq, Nat.ofDigitChars_append, Nat.ofDigitChars_replicate_zero, Nat.mul_comm] at hvalue
  exact hvalue

/-- The digits without the zeros at the end are bounded by their number. -/
theorem ofDigitChars_trimmed_lt (n : Nat) :
    Nat.ofDigitChars 10 (trimmed n) 0 < 10 ^ (trimmed n).length := by
  have hlength := congrArg List.length (write_eq n)
  rw [List.length_append, List.length_replicate] at hlength
  have hpos : 0 < (write n).length := List.length_pos_iff.2 Nat.toDigits_ne_nil
  have hlt := (Nat.length_toDigits_le_iff (by decide) hpos).1 (le_refl (write n).length)
  rw [hlength, pow_add] at hlt
  refine Nat.lt_of_mul_lt_mul_right (a := 10 ^ zeros n) ?_
  rwa [ofDigitChars_trimmed]

theorem trimmed_ne_nil (h : n ≠ 0) : trimmed n ≠ [] := by
  intro hnil
  have hvalue := ofDigitChars_trimmed n
  rw [hnil, Nat.ofDigitChars_nil, Nat.zero_mul] at hvalue
  exact h hvalue.symm

theorem head?_trimmed_ne (h : n ≠ 0) : (trimmed n).head? ≠ some '0' := by
  have hhead := head?_write_ne h
  rwa [write_eq, List.head?_append_of_ne_nil _ (trimmed_ne_nil h)] at hhead

/-- The digits of a whole number other than zero are a whole number without those zeros. -/
theorem isWhole_trimmed (h : n ≠ 0) : IsWhole (trimmed n) := by
  refine isWhole_of_head?_ne (fun c hc => areDigits_write n c ?_) (trimmed_ne_nil h)
    (head?_trimmed_ne h)
  rw [write_eq]
  exact List.mem_append_left _ hc

end Numeral

/-! ## The number in a text -/

/-- The decimal number without the zeros at the end of its digits. -/
def Decimal.trim (d : Decimal) : Decimal :=
  ⟨Nat.ofDigitChars 10 (Numeral.trimmed d.digits) 0, d.exponent + Numeral.zeros d.digits⟩

namespace Decimal

/-- The numerator of the decimal number. -/
def num (d : Decimal) : Nat :=
  d.digits * 10 ^ d.exponent.toNat

/-- The denominator of the decimal number, a power of ten. -/
def den (d : Decimal) : Nat :=
  10 ^ (-d.exponent).toNat

theorem den_pos (d : Decimal) : 0 < d.den := by
  unfold den
  positivity

/-- Two decimal numbers have the same value. -/
def SameValue (d e : Decimal) : Prop :=
  d.num * e.den = e.num * d.den

variable {d e f : Decimal}

theorem SameValue.symm (h : SameValue d e) : SameValue e d :=
  Eq.symm h

theorem SameValue.trans (h : SameValue d e) (h' : SameValue e f) : SameValue d f := by
  refine Nat.eq_of_mul_eq_mul_right e.den_pos ?_
  calc d.num * f.den * e.den = d.num * e.den * f.den := by ring
    _ = e.num * d.den * f.den := by rw [h]
    _ = e.num * f.den * d.den := by ring
    _ = f.num * e.den * d.den := by rw [h']
    _ = f.num * d.den * e.den := by ring

/-- Zeros at the end of the digits can be left out, if the power of ten is greater by as many. -/
theorem sameValue_shift (digits zeros : Nat) (exponent : Int) :
    SameValue ⟨digits * 10 ^ zeros, exponent⟩ ⟨digits, exponent + zeros⟩ := by
  have hpowers : zeros + exponent.toNat + (-(exponent + zeros)).toNat =
      (exponent + zeros).toNat + (-exponent).toNat := by
    omega
  show digits * 10 ^ zeros * 10 ^ exponent.toNat * 10 ^ (-(exponent + zeros)).toNat =
    digits * 10 ^ (exponent + zeros).toNat * 10 ^ (-exponent).toNat
  rw [mul_assoc, mul_assoc, ← pow_add, ← pow_add, mul_assoc, ← pow_add, ← hpowers, add_assoc]

theorem sameValue_trim (d : Decimal) : SameValue d d.trim := by
  have hshift := sameValue_shift d.trim.digits (Numeral.zeros d.digits) d.exponent
  rwa [show d.trim.digits * 10 ^ Numeral.zeros d.digits = d.digits from
    Numeral.ofDigitChars_trimmed d.digits] at hshift

end Decimal

namespace Layout

open Numeral

/-- The power of ten of the first digit. -/
def leading (d : Decimal) : Int :=
  (trimmed d.digits).length + d.trim.exponent - 1

/-- The decimal number as it stands in its text. Zeros are written up to the point and, if nothing
else would stand behind the point, one more. -/
def written (layout : Layout) (d : Decimal) : Decimal :=
  if d.digits = 0 then ⟨0, -1⟩
  else if layout.least ≤ leading d ∧ leading d < layout.bound ∧ 0 ≤ d.trim.exponent then
    ⟨d.trim.digits * 10 ^ (d.trim.exponent.toNat + 1), -1⟩
  else d.trim

/-- A power of ten as text. -/
def powerText (plus : Bool) (power : Int) : List Char :=
  (if power < 0 then ['-'] else if plus then ['+'] else []) ++ write power.natAbs

/-- The text has these digits in front of the point, these digits behind it, and this power. -/
inductive Spells (plus : Bool) : List Char → List Char → List Char → Int → Prop
  /-- Without a power. -/
  | point (whole fraction : List Char) : fraction ≠ [] →
    Spells plus (whole ++ '.' :: fraction) whole fraction 0
  /-- With a point and a power. -/
  | pointPower (whole fraction : List Char) (power : Int) : fraction ≠ [] →
    Spells plus (whole ++ '.' :: fraction ++ 'e' :: powerText plus power) whole fraction power
  /-- Without a point. -/
  | power (whole : List Char) (power : Int) :
    Spells plus (whole ++ 'e' :: powerText plus power) whole [] power

/-- These digits in front of the point and behind it, with this power, are the decimal number. -/
structure Reads (whole fraction : List Char) (power : Int) (d : Decimal) : Prop where
  front : IsWhole whole
  behind : AreDigits fraction
  digits : Nat.ofDigitChars 10 (whole ++ fraction) 0 = d.digits
  exponent : power - fraction.length = d.exponent

variable {layout : Layout} {d : Decimal}

/-- The digits of the text of a number below one: zeros in front and behind the point come first. -/
theorem reads_small (h : d.digits ≠ 0) (hpower : leading d < 0) :
    Reads ['0'] (List.replicate (-leading d - 1).toNat '0' ++ trimmed d.digits) 0 d.trim where
  front := isWhole_singleton rfl
  behind := areDigits_append (areDigits_zeros _) (isWhole_trimmed h).digits
  digits := by
    rw [Nat.ofDigitChars_append, Nat.ofDigitChars_append, Nat.ofDigitChars_replicate_zero]
    rfl
  exponent := by
    rw [leading] at hpower
    rw [leading, List.length_append, List.length_replicate]
    omega

/-- The digits of the text of a whole number: zeros up to the point and one behind it come last. -/
theorem reads_large (h : d.digits ≠ 0) :
    Reads (trimmed d.digits ++ List.replicate d.trim.exponent.toNat '0') ['0'] 0
      ⟨d.trim.digits * 10 ^ (d.trim.exponent.toNat + 1), -1⟩ where
  front := by
    have hwhole := isWhole_trimmed h
    refine isWhole_of_head?_ne (areDigits_append hwhole.digits (areDigits_zeros _))
      (List.append_ne_nil_of_left_ne_nil hwhole.ne_nil _) ?_
    rw [List.head?_append_of_ne_nil _ hwhole.ne_nil]
    exact head?_trimmed_ne h
  behind := areDigits_zeros 1
  digits := by
    rw [Nat.ofDigitChars_append, Nat.ofDigitChars_append, Nat.ofDigitChars_replicate_zero,
      show ['0'] = List.replicate 1 '0' from rfl, Nat.ofDigitChars_replicate_zero, ← Nat.mul_assoc,
      ← Nat.pow_add, Nat.mul_comm, Nat.add_comm]
    rfl
  exponent := rfl

/-- The digits of the text of a number with the point among them. -/
theorem reads_middle (h : d.digits ≠ 0) (hpower : 0 ≤ leading d) (hexponent : d.trim.exponent < 0) :
    Reads ((trimmed d.digits).take (leading d + 1).toNat)
      ((trimmed d.digits).drop (leading d + 1).toNat) 0 d.trim where
  front := by
    have hwhole := isWhole_trimmed h
    refine isWhole_of_head?_ne (fun c hc => hwhole.digits c (List.mem_of_mem_take hc)) ?_ ?_
    · rw [Ne, List.take_eq_nil_iff, not_or]
      exact ⟨by omega, hwhole.ne_nil⟩
    · rw [List.head?_take, if_neg (by omega)]
      exact head?_trimmed_ne h
  behind := fun c hc => (isWhole_trimmed h).digits c (List.mem_of_mem_drop hc)
  digits := by
    rw [List.take_append_drop]
    rfl
  exponent := by
    rw [leading] at hpower ⊢
    rw [List.length_drop]
    omega

/-- A text with a plain point is spelled by the digits of what is written. -/
theorem spells_plain (plus : Bool) (h : d.digits ≠ 0) :
    ∃ whole fraction, Spells plus (plain (trimmed d.digits) (leading d)) whole fraction 0 ∧
      Reads whole fraction 0 (if 0 ≤ d.trim.exponent then
        ⟨d.trim.digits * 10 ^ (d.trim.exponent.toNat + 1), -1⟩ else d.trim) := by
  have hpos : 0 < (trimmed d.digits).length :=
    List.length_pos_iff.2 (isWhole_trimmed h).ne_nil
  have hleading : leading d = (trimmed d.digits).length + d.trim.exponent - 1 := rfl
  unfold plain
  dsimp only
  split
  · next hsmall =>
    rw [if_neg (by omega)]
    refine ⟨_, _, ?_, reads_small h hsmall⟩
    exact .point ['0'] _ (List.append_ne_nil_of_right_ne_nil _ (isWhole_trimmed h).ne_nil)
  split
  · next hsmall hlarge =>
    have hexponent : 0 ≤ d.trim.exponent := by omega
    have hzeros : leading d + 1 - (trimmed d.digits).length = d.trim.exponent := by omega
    rw [if_pos hexponent, hzeros]
    exact ⟨_, _, .point _ ['0'] (List.cons_ne_nil _ _), reads_large h⟩
  · next hsmall hlarge =>
    rw [if_neg (by omega)]
    refine ⟨_, _, .point _ _ ?_, reads_middle h (by omega) (by omega)⟩
    rw [Ne, List.drop_eq_nil_iff]
    omega

/-- A text with a power is spelled by the digits of what is written. -/
theorem spells_scientific (plus : Bool) (h : d.digits ≠ 0) :
    ∃ whole fraction, Spells plus (scientific plus (trimmed d.digits) (leading d)) whole fraction
        (leading d) ∧ Reads whole fraction (leading d) d.trim := by
  have hwhole := isWhole_trimmed h
  have hleading : leading d = (trimmed d.digits).length + d.trim.exponent - 1 := rfl
  have hdigits : Nat.ofDigitChars 10 (trimmed d.digits) 0 = d.trim.digits := rfl
  generalize trimmed d.digits = chars at *
  match chars with
  | [] => exact absurd rfl hwhole.ne_nil
  | [c] =>
    refine ⟨[c], [], .power [c] _, hwhole, nofun, hdigits, ?_⟩
    simp only [List.length_singleton, List.length_nil] at *
    omega
  | c :: next :: rest =>
    have hc : c.isDigit = true := hwhole.digits c List.mem_cons_self
    have htext : scientific plus (c :: next :: rest) (leading d) =
        [c] ++ '.' :: next :: rest ++ 'e' :: powerText plus (leading d) :=
      List.append_assoc (c :: '.' :: next :: rest) _ _
    rw [htext]
    refine ⟨[c], next :: rest, .pointPower [c] _ _ (List.cons_ne_nil _ _), isWhole_singleton hc,
      fun e he => hwhole.digits e (List.mem_cons_of_mem _ he), hdigits, ?_⟩
    simp only [List.length_cons] at *
    omega

/-- The text of a decimal number is spelled by the digits of what is written. -/
theorem spells_decimal (layout : Layout) (d : Decimal) :
    ∃ whole fraction power, Spells layout.plus (layout.decimal d) whole fraction power ∧
      Reads whole fraction power (layout.written d) := by
  rw [decimal, written]
  by_cases h : d.digits = 0
  · rw [if_pos h, if_pos h]
    exact ⟨['0'], ['0'], 0, .point ['0'] ['0'] (List.cons_ne_nil _ _), isWhole_singleton rfl,
      areDigits_zeros 1, rfl, rfl⟩
  · have hpower : ((write d.digits).length : Int) + d.exponent - 1 = leading d := by
      have hlength := congrArg List.length (write_eq d.digits)
      rw [List.length_append, List.length_replicate] at hlength
      show _ = ((trimmed d.digits).length : Int) + (d.exponent + zeros d.digits) - 1
      omega
    have htrimmed : ((write d.digits).reverse.dropWhile (· = '0')).reverse = trimmed d.digits := rfl
    rw [if_neg h, if_neg h]
    dsimp only
    rw [hpower, htrimmed]
    by_cases hplain : layout.least ≤ leading d ∧ leading d < layout.bound
    · rw [if_pos hplain]
      obtain ⟨whole, fraction, hspells, hreads⟩ := spells_plain layout.plus h
      simp only [hplain, true_and]
      exact ⟨whole, fraction, 0, hspells, hreads⟩
    · rw [if_neg hplain, if_neg fun hall => hplain ⟨hall.1, hall.2.1⟩]
      obtain ⟨whole, fraction, hspells, hreads⟩ := spells_scientific layout.plus h
      exact ⟨whole, fraction, leading d, hspells, hreads⟩

/-- What stands in the text has the value of the decimal number. -/
theorem sameValue_written (layout : Layout) (d : Decimal) : d.SameValue (layout.written d) := by
  unfold written
  split
  · next h =>
    show d.digits * _ * _ = 0 * _ * _
    rw [h, Nat.zero_mul, Nat.zero_mul, Nat.zero_mul, Nat.zero_mul]
  split
  · next hplain =>
    have hexponent : (-1 : Int) + (d.trim.exponent.toNat + 1 : Nat) = d.trim.exponent := by
      omega
    have hshift := Decimal.sameValue_shift d.trim.digits (d.trim.exponent.toNat + 1) (-1)
    rw [hexponent] at hshift
    exact d.sameValue_trim.trans hshift.symm
  · exact d.sameValue_trim

/-- The digits that are written are few if those of the decimal number are, and if a number with many
digits in front of the point is written with a power. -/
theorem digits_written_lt {n : Nat} (h : d.digits < 10 ^ n) (hbound : layout.bound + 1 ≤ n) :
    (layout.written d).digits < 10 ^ n := by
  have htrim : d.trim.digits ≤ d.digits := by
    rw [← ofDigitChars_trimmed d.digits]
    exact Nat.le_mul_of_pos_right _ (by positivity)
  unfold written
  split
  · positivity
  split
  · next hplain =>
    have hleading : leading d = (trimmed d.digits).length + d.trim.exponent - 1 := rfl
    calc d.trim.digits * 10 ^ (d.trim.exponent.toNat + 1)
        < 10 ^ (trimmed d.digits).length * 10 ^ (d.trim.exponent.toNat + 1) :=
          Nat.mul_lt_mul_of_pos_right (ofDigitChars_trimmed_lt _) (by positivity)
      _ = 10 ^ ((trimmed d.digits).length + (d.trim.exponent.toNat + 1)) := (pow_add _ _ _).symm
      _ ≤ 10 ^ n := Nat.pow_le_pow_right (by decide) (by omega)
  · exact htrim.trans_lt h

end Layout

end Switchboard
