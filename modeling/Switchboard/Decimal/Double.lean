/-!
# Doubles

A finite double is a whole number of least units, where one unit is `2 ^ -1074`, together with a
sign. Not every number of units is a double: near `n` units doubles lie `Double.spacing n` apart,
so a double is a multiple of its own spacing that is small enough (`Double.Representable`).

Everything is exact arithmetic on natural numbers. A fraction that is no double is rounded to the
nearest one, and a tie goes to the even multiple of the spacing (`Double.nearest`); a result
that is too large becomes infinite (`Extended.ofRatio`).
-/

namespace Switchboard

namespace Double

/-- How many least units make up one. -/
def one : Nat := Nat.pow 2 1074

/-- The distance between neighbouring doubles from `units` upwards. -/
def spacing (units : Nat) : Nat := Nat.pow 2 (units.log2 - 52)

/-- The first size that is too large for a double. -/
def limit : Nat := Nat.pow 2 2098

/-- There are doubles below the limit. -/
theorem limit_pos : 0 < limit := by
  unfold limit
  apply Nat.pow_pos
  decide

/-- `units` is the size of a finite double. -/
def Representable (units : Nat) : Prop :=
  units % spacing units = 0 ∧ units < limit

instance (units : Nat) : Decidable (Representable units) :=
  inferInstanceAs (Decidable (_ ∧ _))

/-- The multiple of `step` nearest to `num / den`; a tie goes to the even multiple. -/
def roundTo (step num den : Nat) : Nat :=
  let q := num / (den * step)
  let r := num % (den * step)
  let up := den * step < 2 * r ∨ (den * step = 2 * r ∧ q % 2 = 1)
  (if up then q + 1 else q) * step

/-- The size nearest to `num / den` units. -/
def nearest (num den : Nat) : Nat :=
  roundTo (spacing (num / den)) num den

end Double

/-- A finite double. -/
structure Double where
  /-- The sign, which a zero has too. -/
  negative : Bool
  /-- The size in least units. -/
  units : Nat
  /-- Only sizes of doubles occur. -/
  representable : Double.Representable units
deriving DecidableEq

/-- A double, one of the two infinities, or no number at all. -/
inductive Extended where
  /-- A finite double. -/
  | finite (x : Double)
  /-- An infinity with its sign. -/
  | infinite (negative : Bool)
  /-- The result of an operation that has none. -/
  | notANumber
deriving DecidableEq

namespace Double

/-- Zero with the given sign. -/
def zero (negative : Bool) : Double :=
  ⟨negative, 0, Nat.zero_mod _, limit_pos⟩

instance : Inhabited Double := ⟨zero false⟩

/-- The double as a whole number of least units, with its sign. -/
def toUnits (x : Double) : Int :=
  if x.negative then -(x.units : Int) else x.units

/-- Doubles of equal size are equal numbers; the two zeros are one number. -/
def sameNumber (x y : Double) : Bool :=
  x.toUnits == y.toUnits

end Double

namespace Extended

/-- The double nearest to `num / den` units, or an infinity if that is too large. -/
def ofRatio (negative : Bool) (num den : Nat) : Extended :=
  let units := Double.nearest num den
  if h : Double.Representable units then .finite ⟨negative, units, h⟩ else .infinite negative

/-- The double nearest to a whole number. -/
def ofNat (n : Nat) : Extended :=
  ofRatio false (n * Double.one) 1

/-- The double nearest to a whole number. -/
def ofInt (i : Int) : Extended :=
  ofRatio (i < 0) (i.natAbs * Double.one) 1

/-- `x < y` as numbers: nothing is less or greater than what is no number. -/
def less : Extended → Extended → Bool
  | notANumber, _ | _, notANumber => false
  | finite x, finite y => x.toUnits < y.toUnits
  | infinite negative, finite _ => negative
  | finite _, infinite negative => !negative
  | infinite left, infinite right => left && !right

end Extended

end Switchboard
