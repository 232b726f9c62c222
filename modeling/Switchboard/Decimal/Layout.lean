import Switchboard.Decimal.Shortest
import Switchboard.Text.Numeral
/-!
# How a double is written

A double is written with the digits of its shortest decimal (`Double.shortest`). A `Layout` says
when the point stands among the digits and when a power of ten is written instead. There is always
a point or a power of ten, so that a double is never mistaken for a whole number.
-/

namespace Switchboard

/-- The decisions in which ways of writing a double differ. -/
structure Layout where
  /-- The least power of ten of the first digit that is still written with a plain point. -/
  least : Int
  /-- The first power of ten of the first digit that is written as a power. -/
  bound : Int
  /-- A power that is not negative has a plus sign. -/
  plus : Bool

namespace Layout

/-- Digits with a plain point. The first digit has the power of ten `power`. -/
def plain (digits : List Char) (power : Int) : List Char :=
  let len : Int := digits.length
  if power < 0 then
    ['0', '.'] ++ List.replicate (-power - 1).toNat '0' ++ digits
  else if len ≤ power + 1 then
    digits ++ List.replicate (power + 1 - len).toNat '0' ++ ['.', '0']
  else
    digits.take (power + 1).toNat ++ '.' :: digits.drop (power + 1).toNat

/-- Digits with a power of ten behind them. -/
def scientific (plus : Bool) (digits : List Char) (power : Int) : List Char :=
  let mantissa := match digits with
    | d :: next :: rest => d :: '.' :: next :: rest
    | _ => digits
  let sign := if power < 0 then ['-'] else if plus then ['+'] else []
  mantissa ++ 'e' :: sign ++ Numeral.write power.natAbs

/-- The decimal number as text. -/
def decimal (layout : Layout) (d : Decimal) : List Char :=
  if d.digits = 0 then ['0', '.', '0']
  else
    let all := Numeral.write d.digits
    let power : Int := (all.length : Int) + d.exponent - 1
    let digits := (all.reverse.dropWhile (· = '0')).reverse
    if layout.least ≤ power ∧ power < layout.bound then plain digits power
    else scientific layout.plus digits power

/-- The double as text. -/
def double (layout : Layout) (x : Double) : List Char :=
  let size := layout.decimal (Double.shortest x.units)
  if x.negative then '-' :: size else size

end Layout

end Switchboard
