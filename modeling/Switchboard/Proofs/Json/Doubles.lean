import Switchboard.Proofs.Decimal.Shortest
import Switchboard.Proofs.Json.Numbers
/-!
# Doubles in JSON text

A double is written with the digits of its shortest decimal and read by scaling these digits in
rounded steps. This gives a double again, never something too large (`Double.scaled_spelled`); it is
the one that was written if its digits are few and its power of ten small (`Double.reread_eq`). Other
doubles may come back as their neighbour.
-/

namespace Switchboard

namespace Double

variable {units : Nat}

/-! ## What stands in the text -/

/-- The decimal number as it stands in the text of a double. -/
def spelled (units : Nat) : Decimal :=
  JsonNumber.layout.written (shortest units)

/-- The text of a double stands for a number to which the double is the nearest. -/
theorem nearest_spelled (h : units % spacing units = 0) :
    nearest ((spelled units).num * one) (spelled units).den = units := by
  have hvalue := Layout.sameValue_written JsonNumber.layout (shortest units)
  rw [← nearest_congr (shortest units).den_pos (spelled units).den_pos]
  · exact nearest_shortest h
  · rw [mul_right_comm, spelled, show (shortest units).num * _ = _ from hvalue, mul_right_comm]

/-- The number in the text is hardly greater than the double. -/
theorem num_spelled_le (hpos : 0 < units) :
    2 * ((spelled units).num * one) ≤ (2 * units + spacing units) * (spelled units).den := by
  have hvalue := Layout.sameValue_written JsonNumber.layout (shortest units)
  have hhigh := (within_iff_near.1 (shortest_spec hpos).1).bounds.2
  have hshortest : 2 * ((shortest units).num * one) ≤
      (2 * units + spacing units) * (shortest units).den := by
    rw [add_mul, mul_assoc]
    omega
  refine Nat.le_of_mul_le_mul_right ?_ (shortest units).den_pos
  calc 2 * ((spelled units).num * one) * (shortest units).den
      = 2 * one * ((spelled units).num * (shortest units).den) := by ring
    _ = 2 * one * ((shortest units).num * (spelled units).den) := by
      rw [show (spelled units).num * _ = _ from hvalue.symm, spelled]
    _ = 2 * ((shortest units).num * one) * (spelled units).den := by ring
    _ ≤ (2 * units + spacing units) * (shortest units).den * (spelled units).den :=
      Nat.mul_le_mul_right _ hshortest
    _ = (2 * units + spacing units) * (spelled units).den * (shortest units).den :=
      mul_right_comm _ _ _

/-- The digits in the text are few. -/
theorem digits_spelled_lt (units : Nat) : (spelled units).digits < 10 ^ 18 :=
  Layout.digits_written_lt (digits_shortest_lt units) (by decide)

/-- A double that is not zero has digits in its text. -/
theorem digits_spelled_pos (hpos : 0 < units) (h : units % spacing units = 0) :
    0 < (spelled units).digits := by
  refine Nat.pos_of_ne_zero fun hzero => hpos.ne' ?_
  rw [← nearest_spelled h, Decimal.num, hzero, zero_mul, zero_mul]
  exact nearest_zero (spelled units).den_pos

end Double

namespace Json

open Double

variable {units num den bound digits k : Nat} {negative : Bool} {e : Int}

/-! ## The result is not too large -/

/-- One is a power of two, and the limit of doubles is `2 ^ 1024`. -/
theorem exists_one : ∃ k : Nat, 52 ≤ k ∧ one = 2 ^ k ∧ limit = 2 ^ (k + 1024) := by
  refine ⟨1074, by decide, ?_, ?_⟩
  · unfold one
    generalize 1074 = k
    exact Nat.pow_eq
  · unfold limit
    simp only [Nat.reduceAdd]
    generalize 2098 = k
    exact Nat.pow_eq

/-- A fraction that is not beyond the doubles is rounded to a double. -/
theorem representable_nearest (hden : 0 < den) (hbound : Representable bound)
    (h : num ≤ bound * den) : Representable (nearest num den) :=
  ⟨nearest_mod_spacing hden num, (nearest_le hden hbound.1 h).trans_lt hbound.2⟩

/-- A power of ten is one at least. -/
theorem one_le_powerOfTen (n : Nat) : one ≤ powerOfTen n := by
  obtain ⟨k, -, hone, -⟩ := exists_one
  rw [powerOfTen, hone]
  refine two_pow_le_nearest Nat.one_pos ?_
  rw [mul_one]
  exact Nat.le_mul_of_pos_left _ (Nat.pow_pos (by decide))

theorem powerOfTen_pos (n : Nat) : 0 < powerOfTen n :=
  Nat.lt_of_lt_of_le Double.one_pos (one_le_powerOfTen n)

/-- Dividing a double by a power of ten gives a double. -/
theorem representable_shrink (hk : 2 ^ k < limit) (n : Nat) (h : units ≤ 2 ^ k) :
    Representable (shrink units n) := by
  have hstep : ∀ units n, units ≤ 2 ^ k → units * one ≤ 2 ^ k * powerOfTen n := fun units n h =>
    Nat.mul_le_mul h (one_le_powerOfTen n)
  fun_induction shrink units n with
  | case1 units n hn =>
    exact representable_nearest (powerOfTen_pos n) ⟨two_pow_mod_spacing k, hk⟩ (hstep _ _ h)
  | case2 n hn => exact ⟨Nat.zero_mod _, limit_pos⟩
  | case3 units n hn hunits ih =>
    exact ih (nearest_le (powerOfTen_pos _) (two_pow_mod_spacing k) (hstep _ _ h))

/-- Few digits with a negative power of ten give a double. -/
theorem isSome_scaled_of_neg (h : digits < 10 ^ 18) (he : e < 0) :
    (scaled negative digits e).isSome := by
  obtain ⟨k, -, hone, hlimit⟩ := exists_one
  have hunits : nearest (digits * one) 1 ≤ 2 ^ (60 + k) := by
    refine nearest_le Nat.one_pos (two_pow_mod_spacing _) ?_
    rw [mul_one, hone, pow_add]
    exact Nat.mul_le_mul_right _ (by omega)
  have hbound : 2 ^ (60 + k) < limit := by
    rw [hlimit]
    exact Nat.pow_lt_pow_right (by decide) (by omega)
  have hsize := representable_shrink hbound (-e).toNat hunits
  simp only [scaled, if_pos he, dif_pos hsize, Option.isSome_some]

/-- So do digits with a power of ten that is not negative, if their product is below the largest
doubles. The rounding of both factors makes it greater by two units in the last place at most. -/
theorem isSome_scaled_of_le {t : Nat} (hdigits : 0 < digits) (he : 0 ≤ e)
    (hgreatest : e.toNat ≤ greatestPower) (ht : Representable ((2 ^ 53 - 1) * t))
    (h : 2 * (digits * 10 ^ e.toNat * one) ≤ (2 ^ 54 - 7) * t) :
    (scaled negative digits e).isSome := by
  have hlarge : ∀ n, 0 < n → 2 ^ 52 * 1 ≤ n * one := by
    obtain ⟨k, hk, hone, -⟩ := exists_one
    intro n hn
    rw [mul_one, hone]
    exact (Nat.pow_le_pow_right (by decide) hk).trans (Nat.le_mul_of_pos_left _ hn)
  have hsignificand := nearest_mul_le (hlarge digits hdigits)
  have hpower := nearest_mul_le (hlarge (10 ^ e.toNat) (by positivity))
  have hsize : Representable (nearest (nearest (digits * one) 1 * powerOfTen e.toNat) one) := by
    refine representable_nearest Double.one_pos ht ?_
    rw [powerOfTen, Nat.pow_eq]
    rw [mul_one] at hsignificand hpower
    generalize nearest (digits * one) 1 = u, nearest (10 ^ e.toNat * one) 1 = p at *
    refine Nat.le_of_mul_le_mul_left (c := 2 ^ 107) ?_ (Nat.two_pow_pos 107)
    calc 2 ^ 107 * (u * p) = 2 * (2 ^ 53 * u * (2 ^ 53 * p)) := by ring
      _ ≤ 2 * ((2 ^ 53 + 1) * (digits * one) * ((2 ^ 53 + 1) * (10 ^ e.toNat * one))) :=
        Nat.mul_le_mul_left 2 (Nat.mul_le_mul hsignificand hpower)
      _ = (2 ^ 53 + 1) ^ 2 * (2 * (digits * 10 ^ e.toNat * one)) * one := by ring
      _ ≤ (2 ^ 53 + 1) ^ 2 * ((2 ^ 54 - 7) * t) * one :=
        Nat.mul_le_mul_right _ (Nat.mul_le_mul_left _ h)
      _ = (2 ^ 53 + 1) ^ 2 * (2 ^ 54 - 7) * (t * one) := by ring
      _ ≤ 2 ^ 107 * (2 ^ 53 - 1) * (t * one) := Nat.mul_le_mul_right _ (by decide)
      _ = 2 ^ 107 * ((2 ^ 53 - 1) * t * one) := by ring
  simp only [scaled, if_neg (Int.not_lt.2 he), if_pos hgreatest, dif_pos hsize, Option.isSome_some]

/-- The largest three doubles come out as doubles, too, although they are closer to the limit. -/
theorem isSome_scaled_largest : ∀ m ∈ [1, 2, 3], ∀ negative,
    (scaled negative (spelled ((2 ^ 53 - m) * (one * 2 ^ 971))).digits
      (spelled ((2 ^ 53 - m) * (one * 2 ^ 971))).exponent).isSome := by
  decide +kernel

/-- A power of ten that does not go beyond the limit is one of those that are doubles. -/
theorem le_greatestPower {n : Nat} (h : 10 ^ n < 2 ^ 1024) : n ≤ greatestPower := by
  by_contra hlt
  have hpow : 10 ^ (greatestPower + 1) ≤ 10 ^ n :=
    Nat.pow_le_pow_right (by decide) (Nat.not_le.1 hlt)
  have hlarge : 2 ^ 1024 ≤ 10 ^ (greatestPower + 1) := by decide +kernel
  exact absurd (hlarge.trans hpow) (Nat.not_le.2 h)

/-- The spacing of the largest doubles. -/
theorem exists_largestStep : ∃ j t : Nat, t = 2 ^ j ∧ t = one * 2 ^ 971 ∧ limit = 2 ^ 53 * t := by
  obtain ⟨k, -, hone, hlimit⟩ := exists_one
  refine ⟨k + 971, 2 ^ (k + 971), rfl, ?_, ?_⟩
  · rw [hone, pow_add]
  · rw [hlimit, ← pow_add, show 53 + (k + 971) = k + 1024 by omega]

/-- All doubles but three keep away from the limit by four times the largest spacing. -/
theorem le_limit_or_largest (h : Representable units) :
    units + 4 * (one * 2 ^ 971) ≤ limit ∨
      ∃ m ∈ [1, 2, 3], units = (2 ^ 53 - m) * (one * 2 ^ 971) := by
  obtain ⟨j, t, hj, ht, hlimit⟩ := exists_largestStep
  have hlt : units < 2 ^ 53 * t := hlimit ▸ h.2
  rw [hlimit, ← ht]
  by_cases hlarge : units + 4 * t ≤ 2 ^ 53 * t
  · exact .inl hlarge
  right
  have hspacing : spacing units = t := by
    rw [hj] at hlt hlarge ⊢
    rw [spacing_eq (k := 52 + j), Nat.add_sub_cancel_left]
    · rw [pow_add]
      omega
    · rwa [show 52 + j + 1 = 53 + j by omega, pow_add]
  obtain ⟨m, hm⟩ := Nat.dvd_of_mod_eq_zero h.1
  rw [hspacing, mul_comm] at hm
  have hm_lt : m < 2 ^ 53 := Nat.lt_of_mul_lt_mul_right (hm ▸ hlt)
  have hm_le : 2 ^ 53 < m + 4 := by
    refine Nat.lt_of_mul_lt_mul_right (a := t) ?_
    rw [add_mul, ← hm]
    exact Nat.not_le.1 hlarge
  refine ⟨2 ^ 53 - m, ?_, by rw [Nat.sub_sub_self hm_lt.le, hm]⟩
  simp only [List.mem_cons, List.not_mem_nil, or_false]
  omega

/-- The text of a double that keeps away from the limit stands for a double, if its power of ten is
not negative. -/
theorem isSome_scaled_of_le_limit (h : Representable units) (hpos : 0 < units)
    (he : 0 ≤ (spelled units).exponent) (hle : units + 4 * (one * 2 ^ 971) ≤ limit) :
    (scaled negative (spelled units).digits (spelled units).exponent).isSome := by
  obtain ⟨j, t, hj, ht, hlimit⟩ := exists_largestStep
  have hlt : units < 2 ^ 53 * t := hlimit ▸ h.2
  rw [hlimit, ← ht] at hle
  have hspacing : spacing units ≤ t := by
    rw [hj]
    refine spacing_le_two_pow ?_
    rwa [hj, ← pow_add, add_comm] at hlt
  have hnum := num_spelled_le hpos
  have hdigits := digits_spelled_pos hpos h.1
  rw [Decimal.den, show (-(spelled units).exponent).toNat = 0 by omega, pow_zero, Decimal.num,
    mul_one] at hnum
  have hpower : 10 ^ (spelled units).exponent.toNat < 2 ^ 1024 := by
    refine lt_of_le_of_lt (Nat.le_mul_of_pos_left _ hdigits) ?_
    refine Nat.lt_of_mul_lt_mul_right (a := one) ?_
    have hvalue : 2 ^ 1024 * one = 2 ^ 53 * t := by
      rw [ht, show 1024 = 53 + 971 from rfl, pow_add, mul_assoc, mul_comm one]
    rw [hvalue]
    generalize one = o at *
    omega
  refine isSome_scaled_of_le hdigits he (le_greatestPower hpower) (t := t) ⟨?_, ?_⟩ ?_
  · rw [hj]
    exact mul_two_pow_mod_spacing (by decide) _
  · rw [hlimit]
    omega
  · generalize one = o at *
    omega

/-- The text of a double stands for a double. -/
theorem isSome_scaled_spelled (h : Representable units) :
    (scaled negative (spelled units).digits (spelled units).exponent).isSome := by
  by_cases he : (spelled units).exponent < 0
  · exact isSome_scaled_of_neg (digits_spelled_lt units) he
  have hpos : 0 < units := by
    refine Nat.pos_of_ne_zero fun hzero => he ?_
    rw [hzero]
    decide
  rcases le_limit_or_largest h with hle | ⟨m, hm, hunits⟩
  · exact isSome_scaled_of_le_limit h hpos (Int.not_lt.1 he) hle
  · have hlast := isSome_scaled_largest m hm negative
    rwa [← hunits] at hlast

/-! ## Few digits and a small power -/

/-- Small powers of ten are doubles. -/
theorem powerOfTen_eq {n : Nat} (hn : n ≤ 22) : powerOfTen n = 10 ^ n * one := by
  obtain ⟨k, -, hone, -⟩ := exists_one
  have hfive : 5 ^ n < 2 ^ 53 :=
    lt_of_le_of_lt (Nat.pow_le_pow_right (by decide) hn) (by decide)
  have hexact : 10 ^ n * one = 5 ^ n * 2 ^ (n + k) := by
    rw [hone, pow_add, ← mul_assoc, ← mul_pow, show 5 * 2 = 10 from rfl]
  have hself := nearest_one (mul_two_pow_mod_spacing hfive (n + k))
  rwa [← hexact] at hself

/-- Digits that are themselves a double, scaled by a power of ten that is one, are rounded only
once. -/
theorem scaled_eq_nearest (hdigits : digits < 2 ^ 53) (hlow : -22 ≤ e) (hhigh : e ≤ 22)
    (h : Representable
      (nearest ((⟨digits, e⟩ : Decimal).num * one) (⟨digits, e⟩ : Decimal).den)) :
    scaled negative digits e = some ⟨negative, _, h⟩ := by
  obtain ⟨k, -, hone, -⟩ := exists_one
  have hsignificand : nearest (digits * one) 1 = digits * one := by
    have hself := nearest_one (mul_two_pow_mod_spacing hdigits k)
    rwa [← hone] at hself
  have hsize : (if e < 0 then shrink (nearest (digits * one) 1) (-e).toNat
      else if e.toNat ≤ greatestPower then
        nearest (nearest (digits * one) 1 * powerOfTen e.toNat) one
      else if nearest (digits * one) 1 = 0 then 0 else limit) =
      nearest ((⟨digits, e⟩ : Decimal).num * one) (⟨digits, e⟩ : Decimal).den := by
    rw [hsignificand, Decimal.num, Decimal.den]
    dsimp only
    split
    · next he =>
      have hpower : (-e).toNat ≤ greatestPower := by
        unfold greatestPower
        omega
      rw [shrink, if_pos hpower, powerOfTen_eq (by omega), nearest_mul Double.one_pos,
        show e.toNat = 0 by omega, pow_zero, mul_one]
    · next he =>
      have hpower : e.toNat ≤ greatestPower := by
        unfold greatestPower
        omega
      rw [if_pos hpower, powerOfTen_eq (by omega), show (-e).toNat = 0 by omega, pow_zero,
        ← nearest_mul Double.one_pos _ 1, one_mul, mul_mul_mul_comm, ← mul_assoc]
  simp only [scaled, hsize, dif_pos h]

end Json

namespace Double

open Json

variable {x : Double}

/-! ## The double that comes back -/

/-- The double that the text of a double stands for. -/
def reread (x : Double) : Double :=
  (scaled x.negative (spelled x.units).digits (spelled x.units).exponent).getD x

/-- The digits in the text are a double themselves, and the power of ten is one, too. -/
def IsShort (x : Double) : Prop :=
  (spelled x.units).digits < 2 ^ 53 ∧ -22 ≤ (spelled x.units).exponent ∧
    (spelled x.units).exponent ≤ 22

instance (x : Double) : Decidable x.IsShort :=
  inferInstanceAs (Decidable (_ ∧ _))

theorem scaled_spelled (x : Double) :
    scaled x.negative (spelled x.units).digits (spelled x.units).exponent = some x.reread := by
  have hsome : (scaled x.negative (spelled x.units).digits (spelled x.units).exponent).isSome :=
    isSome_scaled_spelled x.representable
  obtain ⟨y, hy⟩ := Option.isSome_iff_exists.1 hsome
  rw [reread, hy, Option.getD_some]

/-- A double with few digits and a small power comes back as it was. -/
theorem reread_eq (h : x.IsShort) : x.reread = x := by
  obtain ⟨hdigits, hlow, hhigh⟩ := h
  have hnearest := nearest_spelled x.representable.1
  have hscaled := x.scaled_spelled
  rw [scaled_eq_nearest hdigits hlow hhigh (hnearest.symm ▸ x.representable), Option.some_inj]
    at hscaled
  simp only [← hscaled, hnearest]

/-- With more digits it may not: `0.13437057991513437` comes back as `0.13437057991513435`. -/
example : reread ⟨false, 4841210349082853 * 2 ^ 1019, by decide +kernel⟩ =
    ⟨false, 4841210349082852 * 2 ^ 1019, by decide +kernel⟩ := by
  decide +kernel

end Double

namespace Json

variable {rest : List Char}

/-- A double is read up to what closes it. -/
theorem unsigned_double (x : Double) (hrest : Closes rest) :
    unsigned x.negative (JsonNumber.layout.decimal (Double.shortest x.units) ++ rest) =
      .ok (.double x.reread, rest) := by
  obtain ⟨whole, fraction, p, hspells, hreads⟩ :=
    Layout.spells_decimal JsonNumber.layout (Double.shortest x.units)
  have hsmall := (Double.digits_spelled_lt x.units).trans (show _ < 0x10000000000000000 by decide)
  have hscaled := x.scaled_spelled
  rw [Double.spelled] at hsmall hscaled
  rw [unsigned_of_spells hspells hreads hrest, toDouble_eq hreads hsmall hscaled]
  rfl

end Json

end Switchboard
