import Switchboard.Decimal.Double
import Switchboard.Text.Numeral
/-!
# Reading a double from text

A number in text has an optional sign and then either a word for one of the special values
(`inf`, `infinity`, `nan`, in any case) or decimal digits with at most one point and an optional
power of ten. Digits may be missing on one side of the point, not on both. The text stands for the
double nearest to the number it names.
-/

namespace Switchboard.Extended

/-- A decimal number: digits, read as one whole number, times a power of ten. -/
structure Literal where
  /-- All digits in front of and behind the point. -/
  digits : Nat
  /-- The power of ten they are multiplied with. -/
  exponent : Int
deriving DecidableEq, Repr

/-- How far a power of ten can lie from zero before every literal of `len` digits is beyond the
largest or below the smallest double. -/
def reach (len : Nat) : Nat := len + 400

/-- The double nearest to a decimal number. Powers out of reach are not computed. -/
def ofLiteral (negative : Bool) (l : Literal) : Extended :=
  let far := reach (Nat.toDigits 10 l.digits).length
  if l.digits = 0 then .finite (Double.zero negative)
  else if (far : Int) < l.exponent then .infinite negative
  else if l.exponent < -(far : Int) then .finite (Double.zero negative)
  else if 0 ≤ l.exponent then
    ofRatio negative (l.digits * Nat.pow 10 l.exponent.toNat * Double.one) 1
  else
    ofRatio negative (l.digits * Double.one) (Nat.pow 10 (-l.exponent).toNat)

/-- An exponent: an optional sign and at least one digit, and nothing after it. -/
def exponent? (cs : List Char) : Option Int :=
  match cs with
  | '-' :: rest => (Numeral.read? rest).map fun n => -(n : Int)
  | '+' :: rest => (Numeral.read? rest).map Int.ofNat
  | _ => (Numeral.read? cs).map Int.ofNat

/-- A decimal number without sign: digits, at most one point, and an optional power of ten. -/
def literal? (cs : List Char) : Option Literal :=
  let whole := cs.takeWhile Char.isDigit
  let afterWhole := cs.dropWhile Char.isDigit
  let (fraction, rest) := match afterWhole with
    | '.' :: tail => (tail.takeWhile Char.isDigit, tail.dropWhile Char.isDigit)
    | _ => ([], afterWhole)
  match Numeral.read? (whole ++ fraction) with
  | none => none
  | some digits =>
    let shift : Int := -(fraction.length : Int)
    match rest with
    | [] => some ⟨digits, shift⟩
    | c :: tail =>
      if c = 'e' ∨ c = 'E' then (exponent? tail).map fun e => ⟨digits, e + shift⟩ else none

/-- The special values, spelled in any case. -/
def special? (cs : List Char) (negative : Bool) : Option Extended :=
  let word := String.ofList (cs.map Char.toLower)
  if word = "inf" ∨ word = "infinity" then some (.infinite negative)
  else if word = "nan" then some .notANumber
  else none

/-- Reads a number: an optional sign, then a decimal number or a special value. -/
def read? (cs : List Char) : Option Extended :=
  let (negative, body) := match cs with
    | '-' :: rest => (true, rest)
    | '+' :: rest => (false, rest)
    | _ => (false, cs)
  match literal? body with
  | some l => some (ofLiteral negative l)
  | none => special? body negative

end Switchboard.Extended
