import Switchboard.Decimal.Double
/-!
# The shortest decimal of a double

Many decimal numbers round to the same double. The one that is written has the fewest digits, and
of those with equally many digits it is the one nearest to the double; a tie goes to the even
digit.

The numbers that round to `n` units form an interval around `n`, which includes its ends exactly
if `n` is an even multiple of its spacing (`Double.Within`). For one digit, two digits and so on,
the two neighbours of the double on the decimal grid with that many digits are tested; seventeen
digits always suffice.
-/

namespace Switchboard

/-- A decimal number `digits * 10 ^ exponent`. -/
structure Decimal where
  /-- The digits as a whole number. -/
  digits : Nat
  /-- The power of ten. -/
  exponent : Int
deriving DecidableEq, Repr

namespace Double

/-- The distance to the next smaller double, in least units. -/
def gapBelow (units : Nat) : Nat :=
  let step := spacing units
  if 1 < step ∧ units = Nat.pow 2 units.log2 then step / 2 else step

/-- A quarter of a least unit, scaled by `10 ^ k` for a negative power `k`: decimal numbers with
that power and the ends of the interval around a double are whole multiples of it. -/
def quarters (d : Decimal) : Nat :=
  d.digits * Nat.pow 10 d.exponent.toNat * (4 * one)

/-- `d` rounds to `units` least units. -/
def Within (units : Nat) (d : Decimal) : Prop :=
  let scale := Nat.pow 10 (-d.exponent).toNat
  let low := (4 * units - 2 * gapBelow units) * scale
  let high := (4 * units + 2 * spacing units) * scale
  let x := quarters d
  if units / spacing units % 2 = 0 then low ≤ x ∧ x ≤ high else low < x ∧ x < high

instance (units : Nat) (d : Decimal) : Decidable (Within units d) := by
  unfold Within
  infer_instance

/-- How far `d` is from `units` least units, on a scale that depends on the exponent alone. -/
def distance (units : Nat) (d : Decimal) : Nat :=
  let x := quarters d
  let y := 4 * units * Nat.pow 10 (-d.exponent).toNat
  (x - y) + (y - x)

/-- How many decimal digits `n` has. -/
def digitCount (n : Nat) : Int := (Nat.toDigits 10 n).length

/-- The power of ten of the first digit of `units` least units. -/
def leadingPower (units : Nat) : Int :=
  if one ≤ units then digitCount (units / one) - 1
  else -digitCount ((one + units - 1) / units - 1)

/-- The decimal with the last digit at `10 ^ exponent` that is nearest to `units` least units and
rounds to it, if one does. -/
def onGrid? (units : Nat) (exponent : Int) : Option Decimal :=
  let scaled := units * Nat.pow 10 (-exponent).toNat / (one * Nat.pow 10 exponent.toNat)
  let below : Decimal := ⟨scaled, exponent⟩
  let above : Decimal := ⟨scaled + 1, exponent⟩
  if Within units below then
    if Within units above then
      if distance units above < distance units below ∨
          (distance units above = distance units below ∧ scaled % 2 = 1) then some above
      else some below
    else some below
  else if Within units above then some above
  else none

/-- Tries the grids from `exponent` downwards. -/
def firstGrid (units : Nat) (exponent : Int) : Nat → Decimal
  | 0 => ⟨units * Nat.pow 10 (-exponent).toNat / (one * Nat.pow 10 exponent.toNat), exponent⟩
  | tries + 1 =>
    match onGrid? units exponent with
    | some d => d
    | none => firstGrid units (exponent - 1) tries

/-- The shortest decimal that rounds to `units` least units. -/
def shortest (units : Nat) : Decimal :=
  if units = 0 then ⟨0, 0⟩ else firstGrid units (leadingPower units) 17

end Double

end Switchboard
