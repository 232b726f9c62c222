import Mathlib
import Switchboard.Decimal.Shortest
/-!
# Rounding to doubles

A fraction is rounded to a multiple of the spacing of doubles at its size. Whatever is used of that
is here: rounding depends on the value of the fraction only (`Double.nearest_congr`), it does not
cross a double (`Double.nearest_le`, `Double.le_nearest`), its error is small
(`Double.nearest_mul_le`), and every fraction in the interval around a double is rounded to that
double (`Double.nearest_eq`).
-/

namespace Switchboard.Double

variable {step num den units m k n : Nat}

/-! ## Multiples of a step -/

/-- A fraction closer to the `m`-th multiple than to any other one is rounded to it, and so is one
half-way between two, if `m` is even. -/
theorem roundTo_eq (hpos : 0 < den * step)
    (hlow : 2 * (m * (den * step)) < 2 * num + den * step ∨
      m % 2 = 0 ∧ 2 * (m * (den * step)) = 2 * num + den * step)
    (hhigh : 2 * num < 2 * (m * (den * step)) + den * step ∨
      m % 2 = 0 ∧ 2 * num = 2 * (m * (den * step)) + den * step) :
    roundTo step num den = m * step := by
  rw [roundTo]
  have hdiv := Nat.div_add_mod num (den * step)
  have hmod := Nat.mod_lt num hpos
  generalize den * step = width at *
  generalize num / width = q, num % width = r at *
  rw [Nat.mul_comm width q] at hdiv
  -- The multiple is the one below the fraction or the one above it.
  have hq : q ≤ m := by
    by_contra hlt
    have hmul := Nat.mul_le_mul_right width (Nat.succ_le_of_lt (Nat.not_le.1 hlt))
    rw [Nat.succ_mul] at hmul
    omega
  have hm : m ≤ q + 1 := by
    by_contra hlt
    have hmul := Nat.mul_le_mul_right width (Nat.succ_le_of_lt (Nat.not_le.1 hlt))
    rw [Nat.succ_mul, Nat.succ_mul] at hmul
    omega
  have hcases : m = q ∨ m = q + 1 := by omega
  rcases hcases with rfl | rfl
  · rw [if_neg (by omega)]
  · have hnext : (q + 1) * width = q * width + width := Nat.succ_mul q width
    rw [if_pos (by omega)]

/-- The result of rounding is off by half a step at most. -/
theorem roundTo_le (step num den : Nat) :
    2 * (roundTo step num den * den) ≤ 2 * num + den * step := by
  rw [roundTo]
  have hdiv := Nat.div_add_mod num (den * step)
  rw [Nat.mul_assoc, Nat.mul_comm step den]
  generalize den * step = width at *
  generalize num / width = q, num % width = r at *
  rw [Nat.mul_comm width q] at hdiv
  have hnext : (q + 1) * width = q * width + width := Nat.succ_mul q width
  split <;> omega

/-! ## Spacing -/

theorem spacing_pos (units : Nat) : 0 < spacing units :=
  Nat.pow_pos (by decide)

theorem spacing_le (hpos : 0 < units) : spacing units ≤ units :=
  (Nat.pow_le_pow_right (by decide) (Nat.sub_le _ _)).trans (Nat.log2_self_le hpos.ne')

/-- Numbers with equally many binary digits have one spacing. -/
theorem spacing_eq (hlow : 2 ^ k ≤ n) (hhigh : n < 2 ^ (k + 1)) : spacing n = 2 ^ (k - 52) := by
  have hn : n ≠ 0 := (Nat.two_pow_pos k).trans_le hlow |>.ne'
  rw [spacing, (Nat.log2_eq_iff hn).2 ⟨hlow, hhigh⟩, Nat.pow_eq]

theorem spacing_le_two_pow (h : n < 2 ^ (k + 53)) : spacing n ≤ 2 ^ k := by
  rcases Nat.eq_zero_or_pos n with rfl | hpos
  · exact Nat.pow_le_pow_right (by decide) (Nat.zero_le k)
  · have hlog : n.log2 < k + 53 := (Nat.log2_lt hpos.ne').2 h
    exact Nat.pow_le_pow_right (by decide) (by omega)

/-- Small numbers of units are all doubles. -/
theorem spacing_eq_one (h : n < 2 ^ 53) : spacing n = 1 := by
  by_cases hn : n = 0
  · rw [hn]
    rfl
  · have hlog : n.log2 < 53 := (Nat.log2_lt hn).2 h
    rw [spacing, show n.log2 - 52 = 0 by omega]

/-- A number that is not small lies between two powers of two. -/
theorem exists_spacing (h : 2 ^ 53 ≤ n) :
    ∃ k, 53 ≤ k ∧ 2 ^ k ≤ n ∧ n < 2 ^ (k + 1) ∧ spacing n = 2 ^ (k - 52) := by
  have hn : n ≠ 0 := by omega
  exact ⟨n.log2, (Nat.le_log2 hn).2 h, Nat.log2_self_le hn, Nat.lt_log2_self, rfl⟩

/-- The spacing is small against the number. -/
theorem spacing_mul_le (h : 2 ^ 52 ≤ n) : spacing n * 2 ^ 52 ≤ n := by
  have hn : n ≠ 0 := by omega
  have hk : 52 ≤ n.log2 := (Nat.le_log2 hn).2 h
  calc spacing n * 2 ^ 52 = 2 ^ n.log2 := by
        rw [spacing, Nat.pow_eq, ← Nat.pow_add, Nat.sub_add_cancel hk]
    _ ≤ n := Nat.log2_self_le hn

/-- The spacing at a smaller number divides the one at a greater number. -/
theorem spacing_dvd (h : m ≤ n) : spacing m ∣ spacing n := by
  have hlog : m.log2 ≤ n.log2 := by
    by_cases hm : m = 0
    · simp [hm]
    · exact (Nat.le_log2 (by omega)).2 ((Nat.log2_self_le hm).trans h)
  exact Nat.pow_dvd_pow 2 (by omega)

/-! ## The nearest double -/

/-- Rounding depends on the value of a fraction only. -/
theorem nearest_mul {c : Nat} (hc : 0 < c) (num den : Nat) :
    nearest (num * c) (den * c) = nearest num den := by
  have hstep : ∀ step, den * c * step = den * step * c := fun step => Nat.mul_right_comm den c step
  have hmul : ∀ a b : Nat, a * c < 2 * (b * c) ↔ a < 2 * b := by
    intro a b
    rw [← Nat.mul_assoc]
    exact Nat.mul_lt_mul_right hc
  have heq : ∀ a b : Nat, a * c = 2 * (b * c) ↔ a = 2 * b := by
    intro a b
    rw [← Nat.mul_assoc]
    exact Nat.mul_left_inj hc.ne'
  rw [nearest, nearest, Nat.mul_div_mul_right _ _ hc, roundTo, roundTo, hstep,
    Nat.mul_div_mul_right _ _ hc, Nat.mul_mod_mul_right]
  simp only [hmul, heq]

theorem nearest_congr {num' den' : Nat} (hden : 0 < den) (hden' : 0 < den')
    (h : num * den' = num' * den) : nearest num den = nearest num' den' := by
  rw [← nearest_mul hden' num den, ← nearest_mul hden num' den', h, Nat.mul_comm den den']

/-- A fraction that is a double is kept. -/
theorem nearest_self (hden : 0 < den) (h : units % spacing units = 0) :
    nearest (units * den) den = units := by
  have hdvd := Nat.div_mul_cancel (Nat.dvd_of_mod_eq_zero h)
  rw [nearest, Nat.mul_div_cancel _ hden]
  refine (roundTo_eq (m := units / spacing units) (Nat.mul_pos hden (spacing_pos units)) ?_ ?_).trans
    hdvd
  all_goals
    rw [Nat.mul_left_comm (units / spacing units), hdvd, Nat.mul_comm den units]
    have hpos := Nat.mul_pos hden (spacing_pos units)
    omega

/-- A whole number of units that is a double is kept. -/
theorem nearest_one (h : units % spacing units = 0) : nearest units 1 = units := by
  have hself := nearest_self Nat.one_pos h
  rwa [Nat.mul_one] at hself

theorem nearest_zero (hden : 0 < den) : nearest 0 den = 0 := by
  have hself := nearest_self hden (Nat.zero_mod (spacing 0))
  rwa [Nat.zero_mul] at hself

/-- Rounding up a fraction below a double does not go beyond the double. -/
theorem nearest_le (hden : 0 < den) (hunits : units % spacing units = 0)
    (h : num ≤ units * den) : nearest num den ≤ units := by
  rcases h.eq_or_lt with rfl | hlt
  · exact (nearest_self hden hunits).le
  have hv : num / den < units := (Nat.div_lt_iff_lt_mul hden).2 hlt
  have hdvd : spacing (num / den) ∣ units :=
    (spacing_dvd hv.le).trans (Nat.dvd_of_mod_eq_zero hunits)
  have hq : num / (den * spacing (num / den)) * spacing (num / den) < units := by
    rw [← Nat.div_div_eq_div_mul]
    exact (Nat.div_mul_le_self _ _).trans_lt hv
  -- The next multiple of the spacing is the double at most.
  have hnext : (num / (den * spacing (num / den)) + 1) * spacing (num / den) ≤ units := by
    rw [Nat.succ_mul]
    exact Nat.le_of_lt_add_of_dvd (Nat.add_lt_add_right hq _)
      (Nat.dvd_add_self_right.2 (Nat.dvd_mul_left _ _)) hdvd
  rw [nearest, roundTo]
  split
  · exact hnext
  · exact hq.le

/-- Rounding down a fraction above a power of two does not go below the power. -/
theorem two_pow_le_nearest (hden : 0 < den) (h : 2 ^ k * den ≤ num) :
    2 ^ k ≤ nearest num den := by
  have hv : 2 ^ k ≤ num / den := (Nat.le_div_iff_mul_le hden).2 h
  have hpos : num / den ≠ 0 := (Nat.two_pow_pos k).trans_le hv |>.ne'
  have hdvd : spacing (num / den) ∣ 2 ^ (num / den).log2 :=
    Nat.pow_dvd_pow 2 (Nat.sub_le _ _)
  have hq : 2 ^ (num / den).log2 ≤
      num / (den * spacing (num / den)) * spacing (num / den) := by
    rw [← Nat.div_div_eq_div_mul, ← Nat.div_mul_cancel hdvd]
    exact Nat.mul_le_mul_right _ (Nat.div_le_div_right (Nat.log2_self_le hpos))
  refine (Nat.pow_le_pow_right (by decide) ((Nat.le_log2 hpos).2 hv)).trans (hq.trans ?_)
  rw [nearest, roundTo]
  refine Nat.mul_le_mul_right _ ?_
  split <;> omega

/-- A number with up to fifty-three binary digits, times a power of two, is a multiple of its
spacing. -/
theorem mul_two_pow_mod_spacing (h : m < 2 ^ 53) (k : Nat) :
    m * 2 ^ k % spacing (m * 2 ^ k) = 0 := by
  rcases Nat.eq_zero_or_pos m with rfl | hpos
  · rw [Nat.zero_mul, Nat.zero_mod]
  · have hlog : m.log2 < 53 := (Nat.log2_lt hpos.ne').2 h
    have hspacing : spacing (m * 2 ^ k) = 2 ^ (m.log2 + k - 52) := by
      refine spacing_eq ?_ ?_
      · rw [Nat.pow_add]
        exact Nat.mul_le_mul_right _ (Nat.log2_self_le hpos.ne')
      · rw [Nat.add_right_comm, Nat.pow_add]
        exact Nat.mul_lt_mul_of_pos_right Nat.lt_log2_self (Nat.two_pow_pos k)
    rw [hspacing]
    exact Nat.mod_eq_zero_of_dvd ((Nat.pow_dvd_pow 2 (by omega)).mul_left m)

/-- A power of two is a multiple of its spacing. -/
theorem two_pow_mod_spacing (k : Nat) : 2 ^ k % spacing (2 ^ k) = 0 := by
  have hone := mul_two_pow_mod_spacing (m := 1) (by decide) k
  rwa [Nat.one_mul] at hone

/-- What is rounded to is a multiple of its own spacing. -/
theorem nearest_mod_spacing (hden : 0 < den) (num : Nat) :
    nearest num den % spacing (nearest num den) = 0 := by
  have hle : nearest num den ≤ 2 ^ ((num / den).log2 + 1) := by
    refine nearest_le hden (two_pow_mod_spacing _) ?_
    have hlt := (Nat.div_lt_iff_lt_mul hden).1 (Nat.lt_log2_self (n := num / den))
    exact hlt.le
  rcases hle.eq_or_lt with heq | hlt
  · rw [heq]
    exact two_pow_mod_spacing _
  · have hdvd : spacing (nearest num den) ∣ spacing (num / den) := by
      refine Nat.pow_dvd_pow 2 (Nat.sub_le_sub_right ?_ _)
      by_cases hzero : nearest num den = 0
      · rw [hzero]
        exact Nat.zero_le _
      · exact Nat.le_of_lt_succ ((Nat.log2_lt hzero).2 hlt)
    exact Nat.mod_eq_zero_of_dvd (hdvd.trans (Nat.dvd_mul_left _ _))

/-- The error is small against a fraction that is not small itself. -/
theorem nearest_mul_le (h : 2 ^ 52 * den ≤ num) :
    2 ^ 53 * (nearest num den * den) ≤ (2 ^ 53 + 1) * num := by
  rcases Nat.eq_zero_or_pos den with rfl | hden
  · rw [Nat.mul_zero, Nat.mul_zero]
    exact Nat.zero_le _
  have herror := roundTo_le (spacing (num / den)) num den
  have hspacing : den * spacing (num / den) * 2 ^ 52 ≤ num := by
    calc den * spacing (num / den) * 2 ^ 52 = spacing (num / den) * 2 ^ 52 * den := by ring
      _ ≤ num / den * den :=
        Nat.mul_le_mul_right _ (spacing_mul_le ((Nat.le_div_iff_mul_le hden).2 h))
      _ ≤ num := Nat.div_mul_le_self _ _
  rw [nearest]
  omega

/-! ## The interval around a double -/

/-- The fraction lies in the interval around a double, which includes its ends if the double is an
even multiple of its spacing. -/
def Near (units num den : Nat) : Prop :=
  let low := (4 * units - 2 * gapBelow units) * den
  let high := (4 * units + 2 * spacing units) * den
  if units / spacing units % 2 = 0 then low ≤ 4 * num ∧ 4 * num ≤ high
  else low < 4 * num ∧ 4 * num < high

/-- The interval reaches down to the next smaller double at most. -/
theorem gapBelow_le (hpos : 0 < units) : gapBelow units ≤ units := by
  have hspacing := spacing_le hpos
  unfold gapBelow
  dsimp only
  split <;> omega

/-- A fraction inside the interval is near, whether or not the interval includes its ends. -/
theorem near_of_lt (hpos : 0 < units)
    (hlow : 4 * (units * den) < 4 * num + 2 * (gapBelow units * den))
    (hhigh : 4 * num < 4 * (units * den) + 2 * (spacing units * den)) : Near units num den := by
  have hgap := Nat.mul_le_mul_right den (gapBelow_le hpos)
  rw [Near, Nat.sub_mul, Nat.add_mul, Nat.mul_assoc, Nat.mul_assoc, Nat.mul_assoc]
  split <;> omega

/-- What the interval means for a fraction: it is not too far below the double and not too far
above it. -/
theorem Near.bounds (h : Near units num den) :
    (4 * (units * den) < 4 * num + 2 * (gapBelow units * den) ∨
      units / spacing units % 2 = 0 ∧
        4 * (units * den) ≤ 4 * num + 2 * (gapBelow units * den)) ∧
    (4 * num < 4 * (units * den) + 2 * (spacing units * den) ∨
      units / spacing units % 2 = 0 ∧
        4 * num ≤ 4 * (units * den) + 2 * (spacing units * den)) := by
  rw [Near, Nat.sub_mul, Nat.add_mul, Nat.mul_assoc, Nat.mul_assoc, Nat.mul_assoc] at h
  split at h <;> omega

/-- A fraction in the interval is rounded to the double if doubles lie as far apart at the fraction
as they do at the double. -/
theorem nearest_eq_of_spacing (hden : 0 < den) (hunits : units % spacing units = 0)
    (h : Near units num den) (hspacing : spacing (num / den) = spacing units)
    (hgap : gapBelow units = spacing units ∨ units * den ≤ num) :
    nearest num den = units := by
  have hdvd := Nat.div_mul_cancel (Nat.dvd_of_mod_eq_zero hunits)
  have hmul : units / spacing units * (den * spacing units) = units * den := by
    rw [Nat.mul_left_comm, hdvd, Nat.mul_comm]
  have hpos := Nat.mul_pos hden (spacing_pos units)
  obtain ⟨hlow, hhigh⟩ := h.bounds
  rw [Nat.mul_comm (spacing units)] at hhigh
  rw [nearest, hspacing]
  refine (roundTo_eq (m := units / spacing units) hpos ?_ ?_).trans hdvd
  all_goals rw [hmul]
  · rcases hgap with hgap | hgap
    · rw [hgap, Nat.mul_comm (spacing units)] at hlow
      omega
    · omega
  · omega

/-- A fraction in the interval around a power of two and below it is rounded to the power, although
doubles lie closer there. -/
theorem nearest_eq_two_pow (hden : 0 < den) (hk : 53 ≤ k) (h : Near (2 ^ k) num den)
    (hlt : num < 2 ^ k * den) : nearest num den = 2 ^ k := by
  obtain ⟨hlow, -⟩ := h.bounds
  have hspacing : spacing (2 ^ k) = 2 * 2 ^ (k - 53) := by
    rw [spacing, Nat.log2_two_pow, Nat.pow_eq, ← Nat.pow_succ', show (k - 53).succ = k - 52 by omega]
  have hgap : gapBelow (2 ^ k) = 2 ^ (k - 53) := by
    have hpos := Nat.two_pow_pos (k - 53)
    rw [gapBelow, hspacing, Nat.log2_two_pow, if_pos ⟨by omega, rfl⟩]
    exact Nat.mul_div_cancel_left _ (by decide)
  have hpow : 2 ^ k = 2 ^ 53 * 2 ^ (k - 53) := by
    rw [← Nat.pow_add, Nat.add_sub_cancel' hk]
  have hhalf : 2 ^ k = 2 * 2 ^ (k - 1) := by
    rw [← Nat.pow_succ', show (k - 1).succ = k by omega]
  rw [hgap] at hlow
  have hbelow : 2 ^ (k - 1) * den ≤ num := by
    have hle : 2 ^ (k - 53) ≤ 2 ^ (k - 1) := Nat.pow_le_pow_right (by decide) (by omega)
    have hmul := Nat.mul_le_mul_right den hle
    rw [hhalf, Nat.mul_assoc 2] at hlow
    omega
  have hstep : spacing (num / den) = 2 ^ (k - 53) := by
    rw [spacing_eq ((Nat.le_div_iff_mul_le hden).2 hbelow), show k - 1 - 52 = k - 53 by omega]
    rw [show k - 1 + 1 = k by omega]
    exact (Nat.div_lt_iff_lt_mul hden).2 hlt
  have hmul : 2 ^ 53 * (den * 2 ^ (k - 53)) = 2 ^ k * den := by
    rw [hpow]
    ring
  have hpos := Nat.mul_pos hden (Nat.two_pow_pos (k - 53))
  rw [nearest, hstep]
  refine (roundTo_eq (m := 2 ^ 53) hpos ?_ ?_).trans hpow.symm
  all_goals
    rw [hmul, Nat.mul_comm den]
    omega

/-- The gap below a small double is as wide as the one above it. -/
theorem gapBelow_eq_of_small (hsmall : units < 2 ^ 53) : gapBelow units = spacing units := by
  rw [gapBelow, spacing_eq_one hsmall, if_neg fun h => absurd h.1 (by decide)]

/-- So is the one below a double between two powers of two. -/
theorem gapBelow_eq_of_between (hle : 2 ^ k < units) (hlt : units < 2 ^ (k + 1)) :
    gapBelow units = spacing units := by
  rw [gapBelow, (Nat.log2_eq_iff (Nat.ne_of_gt (Nat.zero_lt_of_lt hle))).2 ⟨hle.le, hlt⟩]
  exact if_neg fun h => hle.ne' h.2

/-- Small numbers of units are one unit apart, below as well as above. -/
theorem spacing_div_of_small (hden : 0 < den) (hsmall : units < 2 ^ 53)
    (h : Near units num den) : spacing (num / den) = spacing units := by
  have hhigh := h.bounds.2
  rw [spacing_eq_one hsmall] at hhigh ⊢
  refine spacing_eq_one (lt_of_le_of_lt ?_ hsmall)
  have hlt : num < (units + 1) * den := by
    rw [Nat.succ_mul]
    omega
  exact Nat.le_of_lt_succ ((Nat.div_lt_iff_lt_mul hden).2 hlt)

/-- Doubles lie as far apart at a fraction in the upper half of the interval as at the double, since
the next double is the next power of two at most. -/
theorem spacing_div_of_le (hden : 0 < den) (hunits : units % spacing units = 0) (hk : 53 ≤ k)
    (hle : 2 ^ k ≤ units) (hlt : units < 2 ^ (k + 1)) (h : Near units num den)
    (habove : units * den ≤ num) : spacing (num / den) = spacing units := by
  have hspacing := spacing_eq hle hlt
  have hhigh := h.bounds.2
  have hnext : units + 2 ^ (k - 52) ≤ 2 ^ (k + 1) :=
    Nat.le_of_lt_add_of_dvd (Nat.add_lt_add_right hlt _)
      (Nat.dvd_add_self_right.2 (hspacing ▸ Nat.dvd_of_mod_eq_zero hunits))
      (Nat.pow_dvd_pow 2 (by omega))
  have hmul := Nat.mul_le_mul_right den hnext
  have hpos := Nat.mul_pos (Nat.two_pow_pos (k - 52)) hden
  rw [hspacing] at hhigh ⊢
  refine spacing_eq ((Nat.le_div_iff_mul_le hden).2 ?_) ((Nat.div_lt_iff_lt_mul hden).2 ?_)
  · exact (Nat.mul_le_mul_right den hle).trans habove
  · rw [Nat.add_mul] at hmul
    omega

/-- They do so at a fraction in the lower half, too, unless the double is a power of two. -/
theorem spacing_div_of_lt (hden : 0 < den) (hunits : units % spacing units = 0) (hk : 53 ≤ k)
    (hle : 2 ^ k < units) (hlt : units < 2 ^ (k + 1)) (h : Near units num den)
    (hbelow : num < units * den) : spacing (num / den) = spacing units := by
  have hspacing := spacing_eq hle.le hlt
  have hlow := h.bounds.1
  have hnext : 2 ^ k + 2 ^ (k - 52) ≤ units :=
    Nat.le_of_lt_add_of_dvd (Nat.add_lt_add_right hle _)
      (Nat.dvd_add_self_right.2 (Nat.pow_dvd_pow 2 (by omega)))
      (hspacing ▸ Nat.dvd_of_mod_eq_zero hunits)
  have hmul := Nat.mul_le_mul_right den hnext
  rw [gapBelow_eq_of_between hle hlt, hspacing] at hlow
  rw [hspacing]
  refine spacing_eq ((Nat.le_div_iff_mul_le hden).2 ?_) ((Nat.div_lt_iff_lt_mul hden).2 ?_)
  · rw [Nat.add_mul] at hmul
    omega
  · exact hbelow.trans (Nat.mul_lt_mul_of_pos_right hlt hden)

/-- Every fraction in the interval around a double is rounded to that double. -/
theorem nearest_eq (hden : 0 < den) (hunits : units % spacing units = 0)
    (h : Near units num den) : nearest num den = units := by
  by_cases hsmall : units < 2 ^ 53
  · exact nearest_eq_of_spacing hden hunits h (spacing_div_of_small hden hsmall h)
      (.inl (gapBelow_eq_of_small hsmall))
  obtain ⟨k, hk, hle, hlt, -⟩ := exists_spacing (Nat.not_lt.1 hsmall)
  by_cases habove : units * den ≤ num
  · exact nearest_eq_of_spacing hden hunits h (spacing_div_of_le hden hunits hk hle hlt h habove)
      (.inr habove)
  rcases hle.eq_or_lt with rfl | hle
  · exact nearest_eq_two_pow hden hk h (Nat.not_le.1 habove)
  · exact nearest_eq_of_spacing hden hunits h
      (spacing_div_of_lt hden hunits hk hle hlt h (Nat.not_le.1 habove))
      (.inl (gapBelow_eq_of_between hle hlt))

end Switchboard.Double
