/-!
# Numerals

A whole number is written in decimal digits, without leading zeros. It is read from one or more
decimal digits, leading zeros allowed.
-/

namespace Switchboard.Numeral

/-- The decimal digits of `n`. -/
def write (n : Nat) : List Char :=
  Nat.toDigits 10 n

/-- The number that a non-empty run of decimal digits stands for. -/
def read? (cs : List Char) : Option Nat :=
  if cs ≠ [] ∧ cs.all Char.isDigit then some (Nat.ofDigitChars 10 cs 0) else none

/-- A 64-bit count: digits with an optional plus sign in front, worth less than `2 ^ 64`. -/
def readCount? (cs : List Char) : Option UInt64 :=
  let digits := match cs with
    | '+' :: rest => rest
    | _ => cs
  match read? digits with
  | some n => if n < UInt64.size then some (UInt64.ofNat n) else none
  | none => none

end Switchboard.Numeral
