import Switchboard.Proofs.Decimal.Rounding
import Switchboard.Proofs.Decimal.Spelling
/-!
# The shortest decimal

The shortest decimal of a double is rounded to the double (`Double.nearest_shortest`). Decimal
numbers with seventeen digits lie closer together than doubles do, so that one of the two neighbours
of a double among them is in the interval around the double (`Double.onGrid?_isSome`); the search
ends there at the latest. A shortest decimal has few digits (`Double.digits_shortest_lt`).
-/

namespace Switchboard

namespace Double

variable {units n : Nat} {p e : Int} {d : Decimal}

theorem one_pos : 0 < one := by
  unfold one
  apply Nat.pow_pos
  decide

/-! ## The power of the first digit -/

/-- The double is `10 ^ p` or more. -/
def AtLeast (units : Nat) (p : Int) : Prop :=
  one * 10 ^ p.toNat ≤ units * 10 ^ (-p).toNat

/-- The number of digits tells between which powers of ten a number lies. -/
theorem exists_digitCount (h : 0 < n) :
    ∃ c : Nat, digitCount n = c + 1 ∧ 10 ^ c ≤ n ∧ n < 10 ^ (c + 1) := by
  have hlength : 0 < (Nat.toDigits 10 n).length :=
    List.length_pos_iff.2 Nat.toDigits_ne_nil
  obtain ⟨c, hc⟩ : ∃ c, (Nat.toDigits 10 n).length = c + 1 :=
    ⟨_, (Nat.succ_pred_eq_of_pos hlength).symm⟩
  refine ⟨c, by rw [digitCount, hc]; rfl, ?_, ?_⟩
  · rcases Nat.eq_zero_or_pos c with rfl | hpos
    · exact h
    · by_contra hlt
      have hle := (Nat.length_toDigits_le_iff (by decide) hpos).2 (Nat.not_le.1 hlt)
      omega
  · exact (Nat.length_toDigits_le_iff (by decide) (Nat.succ_pos c)).1 hc.le

theorem atLeast_natCast (c : Nat) : AtLeast units c ↔ one * 10 ^ c ≤ units := by
  rw [AtLeast, Int.toNat_natCast, show (-(c : Int)).toNat = 0 by omega, pow_zero, mul_one]

theorem atLeast_neg (c : Nat) : AtLeast units (-c) ↔ one ≤ units * 10 ^ c := by
  rw [AtLeast, neg_neg, Int.toNat_natCast, show (-(c : Int)).toNat = 0 by omega, pow_zero, mul_one]

/-- The power of the first digit is the greatest one that is not too great. -/
theorem leadingPower_spec (h : 0 < units) :
    AtLeast units (leadingPower units) ∧ ¬AtLeast units (leadingPower units + 1) := by
  unfold leadingPower
  split
  · next hle =>
    obtain ⟨c, hcount, hlow, hhigh⟩ := exists_digitCount (Nat.div_pos hle one_pos)
    rw [hcount, show ((c : Int) + 1 - 1) = c by omega, atLeast_natCast,
      show (c : Int) + 1 = (c + 1 : Nat) from rfl, atLeast_natCast, mul_comm, mul_comm one]
    exact ⟨(Nat.le_div_iff_mul_le one_pos).1 hlow,
      Nat.not_le.2 ((Nat.div_lt_iff_lt_mul one_pos).1 hhigh)⟩
  -- Below one, the digits of the reciprocal are counted, which is rounded up.
  · next hlt =>
    have hdiv := Nat.div_add_mod (one + units - 1) units
    have hmod := Nat.mod_lt (one + units - 1) h
    generalize (one + units - 1) / units = q at *
    have hq : 1 < q := by
      by_contra hle
      have hmul := Nat.mul_le_mul_left units (Nat.not_lt.1 hle)
      omega
    obtain ⟨c, hcount, hlow, hhigh⟩ := exists_digitCount (n := q - 1) (by omega)
    rw [hcount, show -((c : Int) + 1) + 1 = -(c : Int) by omega, atLeast_neg,
      show -((c : Int) + 1) = -((c + 1 : Nat) : Int) from rfl, atLeast_neg, Nat.not_le]
    constructor
    · have hmul := Nat.mul_le_mul_left units (show q ≤ 10 ^ (c + 1) by omega)
      omega
    · have hmul := Nat.mul_le_mul_left units (show 10 ^ c + 1 ≤ q by omega)
      rw [mul_add, mul_one] at hmul
      omega

/-! ## The search -/

/-- To be in the interval is to be near. -/
theorem within_iff_near : Within units d ↔ Near units (d.num * one) d.den := by
  have hquarters : quarters d = 4 * (d.num * one) := by
    rw [quarters, Decimal.num, Nat.pow_eq, mul_left_comm]
  unfold Within Near
  dsimp only
  rw [hquarters]
  rfl

/-- What the search on one grid finds is in the interval, and on the grid. -/
theorem within_of_onGrid? (h : onGrid? units e = some d) : Within units d ∧ d.exponent = e := by
  unfold onGrid? at h
  dsimp only at h
  split at h
  · next hbelow =>
    split at h
    · next habove =>
      split at h
      · cases h
        exact ⟨habove, rfl⟩
      · cases h
        exact ⟨hbelow, rfl⟩
    · cases h
      exact ⟨hbelow, rfl⟩
  · split at h
    · next habove =>
      cases h
      exact ⟨habove, rfl⟩
    · cases h

/-- A double is small against the length of its interval. -/
theorem lt_gap_add_spacing (units : Nat) :
    units < 2 ^ 52 * (gapBelow units + spacing units) := by
  by_cases hsmall : units < 2 ^ 53
  · rw [gapBelow_eq_of_small hsmall, spacing_eq_one hsmall]
    exact hsmall
  · obtain ⟨k, hk, hle, hlt, hspacing⟩ := exists_spacing (Nat.not_lt.1 hsmall)
    have hpow : 2 ^ (k + 1) = 2 ^ 53 * 2 ^ (k - 52) := by
      rw [← pow_add, show 53 + (k - 52) = k + 1 by omega]
    unfold gapBelow
    rw [hspacing]
    dsimp only
    split
    · next h =>
      rw [Nat.pow_eq, (Nat.log2_eq_iff (by omega)).2 ⟨hle, hlt⟩] at h
      omega
    · omega

/-- The neighbours of a double on a grid. One of them is in the interval if the decimal numbers of
the grid lie closer together than the interval is long. -/
theorem within_or_within (hpos : 0 < units)
    (h : 2 * (one * 10 ^ e.toNat) < (gapBelow units + spacing units) * 10 ^ (-e).toNat)
    (hlow : n * (one * 10 ^ e.toNat) ≤ units * 10 ^ (-e).toNat)
    (hhigh : units * 10 ^ (-e).toNat < (n + 1) * (one * 10 ^ e.toNat)) :
    Within units ⟨n, e⟩ ∨ Within units ⟨n + 1, e⟩ := by
  have hgrid : ∀ m, (⟨m, e⟩ : Decimal).num * one = m * (one * 10 ^ e.toNat) := by
    intro m
    rw [Decimal.num, mul_assoc, mul_comm one]
  have hwidth : 0 < spacing units * 10 ^ (-e).toNat :=
    Nat.mul_pos (spacing_pos units) (by positivity)
  rw [within_iff_near, within_iff_near, hgrid, hgrid]
  show Near units _ (10 ^ (-e).toNat) ∨ Near units _ (10 ^ (-e).toNat)
  rw [add_mul] at h
  rw [Nat.succ_mul] at hhigh ⊢
  by_cases hbelow : 4 * (units * 10 ^ (-e).toNat) <
      4 * (n * (one * 10 ^ e.toNat)) + 2 * (gapBelow units * 10 ^ (-e).toNat)
  · exact .inl (near_of_lt hpos hbelow (by omega))
  · exact .inr (near_of_lt hpos (by omega) (by omega))

/-- The search on such a grid finds a decimal number. -/
theorem onGrid?_isSome (hpos : 0 < units)
    (h : 2 * (one * 10 ^ e.toNat) < (gapBelow units + spacing units) * 10 ^ (-e).toNat) :
    (onGrid? units e).isSome := by
  have hstep : 0 < one * 10 ^ e.toNat := Nat.mul_pos one_pos (by positivity)
  have hsome := within_or_within hpos h (Nat.div_mul_le_self _ _)
    ((Nat.lt_div_mul_add hstep).trans_eq (Nat.succ_mul _ _).symm)
  unfold onGrid?
  dsimp only
  rw [Nat.pow_eq, Nat.pow_eq]
  split
  · split
    · split <;> rfl
    · rfl
  · next hbelow =>
    rw [if_pos (hsome.resolve_left hbelow)]
    rfl

/-- The search goes down to the last grid at most, if that has such a decimal number. -/
theorem onGrid?_firstGrid (tries : Nat) (h : (onGrid? units (p - tries)).isSome) :
    ∃ i ≤ tries, onGrid? units (p - (i : Nat)) = some (firstGrid units p (tries + 1)) := by
  induction tries generalizing p with
  | zero =>
    obtain ⟨d, hd⟩ := Option.isSome_iff_exists.1 h
    rw [Int.natCast_zero, sub_zero] at hd
    refine ⟨0, le_rfl, ?_⟩
    rw [Int.natCast_zero, sub_zero, firstGrid, hd]
  | succ tries ih =>
    rw [firstGrid]
    cases hgrid : onGrid? units p with
    | some d => exact ⟨0, Nat.zero_le _, by rw [Int.natCast_zero, sub_zero, hgrid]⟩
    | none =>
      rw [show p - (tries + 1 : Nat) = p - 1 - (tries : Nat) by omega] at h
      obtain ⟨i, hi, hfound⟩ := ih h
      refine ⟨i + 1, Nat.succ_le_succ hi, ?_⟩
      rw [show p - (i + 1 : Nat) = p - 1 - (i : Nat) by omega]
      exact hfound

/-! ## What it finds -/

/-- Powers of ten with exponents of either sign. -/
theorem pow_shift (p : Int) (j : Nat) :
    10 ^ p.toNat * 10 ^ (-(p - j)).toNat = 10 ^ j * 10 ^ (p - j).toNat * 10 ^ (-p).toNat := by
  rw [← pow_add, ← pow_add, ← pow_add]
  congr 1
  omega

/-- The decimal numbers with seventeen digits lie close enough together. -/
theorem onGrid?_last (h : 0 < units) : (onGrid? units (leadingPower units - 16)).isSome := by
  have hlow : one * _ ≤ units * _ := (leadingPower_spec h).1
  have hgap := lt_gap_add_spacing units
  have hshift := pow_shift (leadingPower units) 16
  rw [Nat.cast_ofNat] at hshift
  refine onGrid?_isSome h ?_
  generalize leadingPower units = p, gapBelow units + spacing units = width at *
  have hpos : 0 < 10 ^ (-p).toNat * 10 ^ (-(p - 16)).toNat := by positivity
  refine Nat.lt_of_mul_lt_mul_left (a := 10 ^ 16 * 10 ^ (-p).toNat) ?_
  calc 10 ^ 16 * 10 ^ (-p).toNat * (2 * (one * 10 ^ (p - 16).toNat))
      = 2 * (one * (10 ^ 16 * 10 ^ (p - 16).toNat * 10 ^ (-p).toNat)) := by ring
    _ = 2 * (one * 10 ^ p.toNat * 10 ^ (-(p - 16)).toNat) := by
      rw [mul_assoc one, ← hshift]
    _ ≤ 2 * (units * 10 ^ (-p).toNat * 10 ^ (-(p - 16)).toNat) :=
      Nat.mul_le_mul_left 2 (Nat.mul_le_mul_right _ hlow)
    _ = 2 * units * (10 ^ (-p).toNat * 10 ^ (-(p - 16)).toNat) := by ring
    _ < 10 ^ 16 * width * (10 ^ (-p).toNat * 10 ^ (-(p - 16)).toNat) :=
      Nat.mul_lt_mul_of_pos_right (by omega) hpos
    _ = 10 ^ 16 * 10 ^ (-p).toNat * (width * 10 ^ (-(p - 16)).toNat) := by ring

/-- The shortest decimal is in the interval around the double, and has at most seventeen digits
behind the power of its first digit. -/
theorem shortest_spec (h : 0 < units) :
    Within units (shortest units) ∧
      ∃ i ≤ 16, (shortest units).exponent = leadingPower units - (i : Nat) := by
  obtain ⟨i, hi, hfound⟩ := onGrid?_firstGrid 16 (onGrid?_last h)
  rw [shortest, if_neg h.ne']
  obtain ⟨hwithin, hexponent⟩ := within_of_onGrid? hfound
  exact ⟨hwithin, i, hi, hexponent⟩

/-- A double is the one nearest to its shortest decimal. -/
theorem nearest_shortest (h : units % spacing units = 0) :
    nearest ((shortest units).num * one) (shortest units).den = units := by
  rcases Nat.eq_zero_or_pos units with rfl | hpos
  · rw [shortest, if_pos rfl, Decimal.num, zero_mul, zero_mul]
    exact nearest_zero (Decimal.den_pos _)
  · exact nearest_eq (Decimal.den_pos _) h (within_iff_near.1 (shortest_spec hpos).1)

/-- The digits of a shortest decimal. -/
theorem digits_shortest_lt (units : Nat) : (shortest units).digits < 10 ^ 18 := by
  rcases Nat.eq_zero_or_pos units with rfl | hpos
  · rw [shortest, if_pos rfl]
    positivity
  have hlow : units * _ < one * _ := Nat.not_le.1 (leadingPower_spec hpos).2
  obtain ⟨hwithin, i, hi, hexponent⟩ := shortest_spec hpos
  have hhigh := (within_iff_near.1 hwithin).bounds.2
  have hspacing := Nat.mul_le_mul_right (shortest units).den (spacing_le hpos)
  have hshift := pow_shift (leadingPower units + 1) (i + 1)
  rw [show leadingPower units + 1 - (i + 1 : Nat) = (shortest units).exponent by omega] at hshift
  generalize leadingPower units + 1 = p, shortest units = d at *
  have hnum : d.num * one * 2 ≤ 3 * (units * d.den) := by omega
  have hpos : 0 < one * 10 ^ d.exponent.toNat * 10 ^ (-p).toNat :=
    Nat.mul_pos (Nat.mul_pos one_pos (by positivity)) (by positivity)
  have hdigits : 2 * d.digits < 3 * 10 ^ (i + 1) := by
    refine Nat.lt_of_mul_lt_mul_right (a := one * 10 ^ d.exponent.toNat * 10 ^ (-p).toNat) ?_
    calc 2 * d.digits * (one * 10 ^ d.exponent.toNat * 10 ^ (-p).toNat)
        = d.num * one * 2 * 10 ^ (-p).toNat := by
          rw [Decimal.num]
          ring
      _ ≤ 3 * (units * d.den) * 10 ^ (-p).toNat := Nat.mul_le_mul_right _ hnum
      _ = 3 * d.den * (units * 10 ^ (-p).toNat) := by ring
      _ < 3 * d.den * (one * 10 ^ p.toNat) :=
        Nat.mul_lt_mul_of_pos_left hlow (Nat.mul_pos (by decide) d.den_pos)
      _ = 3 * one * (10 ^ p.toNat * d.den) := by ring
      _ = 3 * one * (10 ^ (i + 1) * 10 ^ d.exponent.toNat * 10 ^ (-p).toNat) := by
        rw [Decimal.den, hshift]
      _ = 3 * 10 ^ (i + 1) * (one * 10 ^ d.exponent.toNat * 10 ^ (-p).toNat) := by ring
  have hpow : 10 ^ (i + 1) ≤ 10 ^ 17 := Nat.pow_le_pow_right (by decide) (by omega)
  omega

end Double

end Switchboard
