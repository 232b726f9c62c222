import Switchboard.Document
import Switchboard.Decimal.Reading
/-!
# What plain scalars stand for

A plain scalar is null, a truth value or a number if it is spelled as one, and else text. Whole
numbers are decimal or, behind `0x`, `0o` and `0b`, in base 16, 8 and 2. Digits with a needless
zero in front are text. A whole number beyond 64 bits is refused up to 128 bits, and is a double
beyond that.
-/

namespace Switchboard.Yaml

/-- The scalar is a spelling of null. -/
def isNull (text : String) : Bool :=
  ["~", "null", "Null", "NULL"].contains text

/-- The truth value that a scalar spells. -/
def truth? (text : String) : Option Bool :=
  if ["true", "True", "TRUE"].contains text then some true
  else if ["false", "False", "FALSE"].contains text then some false
  else none

/-- The value of a digit in bases up to 16. -/
def digitValue (c : Char) : Nat :=
  if c.isDigit then c.toNat - '0'.toNat
  else if 'a' ≤ c ∧ c ≤ 'z' then c.toNat - 'a'.toNat + 10
  else if 'A' ≤ c ∧ c ≤ 'Z' then c.toNat - 'A'.toNat + 10
  else 36

/-- The number that digits of a base stand for. -/
def inBase? (base : Nat) (digits : List Char) : Option Nat :=
  if digits ≠ [] ∧ digits.all fun c => digitValue c < base then
    some (digits.foldl (fun n c => base * n + digitValue c) 0)
  else none

/-- Decimal digits with a needless zero in front. -/
def isPadded : List Char → Bool
  | '0' :: c :: rest => (c :: rest).all Char.isDigit
  | _ => false

/-- A whole number without sign. -/
def magnitude? : List Char → Option Nat
  | '0' :: 'x' :: digits => inBase? 16 digits
  | '0' :: 'o' :: digits => inBase? 8 digits
  | '0' :: 'b' :: digits => inBase? 2 digits
  | digits => if isPadded digits then none else inBase? 10 digits

/-- A whole number. -/
def whole? : List Char → Option Int
  | '-' :: rest => (magnitude? rest).map fun n => -(n : Int)
  | '+' :: rest => (magnitude? rest).map fun n => (n : Int)
  | cs => (magnitude? cs).map fun n => (n : Int)

/-- A plus sign in front of another sign. -/
def isSignedTwice : List Char → Bool
  | '+' :: c :: _ => c = '+' || c = '-'
  | _ => false

/-- A number that need not be whole. -/
def real? (text : String) : Option Extended :=
  if [".inf", ".Inf", ".INF", "+.inf", "+.Inf", "+.INF"].contains text then
    some (.infinite false)
  else if ["-.inf", "-.Inf", "-.INF"].contains text then some (.infinite true)
  else if [".nan", ".NaN", ".NAN"].contains text then some .notANumber
  else if isSignedTwice text.toList then none
  else
    match Extended.read? text.toList with
    | some (.finite x) => some (.finite x)
    | _ => none

/-- The digits of a scalar without its sign. -/
def unsigned : List Char → List Char
  | c :: rest => if c = '+' ∨ c = '-' then rest else c :: rest
  | [] => []

/-- A whole number as a document. One that has more than 64 bits is refused. -/
def ofWhole? (i : Int) : Option Document :=
  if h : InWordRange i then some (.whole i h) else none

/-- A number with up to 128 bits. -/
def isLong (i : Int) : Bool :=
  -0x80000000000000000000000000000000 ≤ i && i < 0x100000000000000000000000000000000

/-- What a scalar stands for that spells no whole number. -/
def ofUncounted (text : String) : Document :=
  if isPadded (unsigned text.toList) then .string text
  else
    match real? text with
    | some x => .real x
    | none => .string text

/-- What a plain scalar stands for. -/
def ofPlain? (text : String) : Option Document :=
  if text = "" ∨ isNull text then some .null
  else
    match truth? text with
    | some b => some (.bool b)
    | none =>
      match whole? text.toList with
      | some i => if isLong i then ofWhole? i else some (ofUncounted text)
      | none => some (ofUncounted text)

/-- What a scalar with the tag of a standard type stands for, which has to be spelled like this
type. All other types are text. -/
def ofTyped? (type text : String) : Option Document :=
  match type with
  | "bool" => (truth? text).map .bool
  | "int" => (whole? text.toList).bind ofWhole?
  | "float" => (real? text).map .real
  | "null" => if isNull text then some .null else none
  | _ => some (.string text)

end Switchboard.Yaml
