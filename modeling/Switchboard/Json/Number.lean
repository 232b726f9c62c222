import Switchboard.Decimal.Layout
/-!
# JSON numbers

A number is either whole, between `-2 ^ 63` and `2 ^ 64 - 1`, or a finite double. The two kinds stay
apart: `1` and `1.0` are different numbers.
-/

namespace Switchboard

/-- The whole numbers that are kept exactly. -/
def InWordRange (i : Int) : Prop :=
  -0x8000000000000000 ≤ i ∧ i < 0x10000000000000000

instance (i : Int) : Decidable (InWordRange i) :=
  inferInstanceAs (Decidable (_ ∧ _))

/-- A number in a JSON value. -/
inductive JsonNumber where
  /-- A whole number. -/
  | whole (i : Int) (inRange : InWordRange i)
  /-- A double. -/
  | double (x : Double)
deriving DecidableEq

namespace JsonNumber

/-- A whole number, if it is in range. -/
def ofInt? (i : Int) : Option JsonNumber :=
  if h : InWordRange i then some (.whole i h) else none

/-- A 64-bit count. -/
def ofCount (n : UInt64) : JsonNumber :=
  .whole n.toNat ⟨by omega, by have := n.toNat_lt; omega⟩

/-- The double nearest to the number. -/
def toExtended : JsonNumber → Extended
  | whole i _ => .ofInt i
  | double x => .finite x

/-- Two numbers of one kind with the same value. The two zeros among the doubles are the same. -/
def same : JsonNumber → JsonNumber → Bool
  | whole i _, whole j _ => i == j
  | double x, double y => x.sameNumber y
  | _, _ => false

/-- Doubles in JSON: plain from `0.00001` to below `10 ^ 16`, else with a signed power of ten. -/
def layout : Layout := ⟨-5, 16, true⟩

/-- The number as text. -/
def render : JsonNumber → List Char
  | whole i _ => if i < 0 then '-' :: Numeral.write i.natAbs else Numeral.write i.natAbs
  | double x => layout.double x

end JsonNumber

end Switchboard
