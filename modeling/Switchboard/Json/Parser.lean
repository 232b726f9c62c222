import Switchboard.Json.Basic
import Switchboard.Error
/-!
# Reading JSON text

Reading a value from a text, character by character. A text that ends too early is told apart from
one that goes wrong (`JsonFault.eof` and `JsonFault.grammar`). Arrays and objects may be nested only
so deep (`Json.depthLimit`).

A literal with a point, a power of ten or too many digits is a double. Its digits are taken as a
whole number as long as that fits into 64 bits, the rest is dropped, and the whole number is then
multiplied with or divided by a power of ten, each step rounded (`Json.scaled`). For literals of
up to fifteen digits and small powers this is the nearest double; longer ones may differ from it
in the last place.
-/

namespace Switchboard.Json

/-- How many arrays and objects a text may nest. -/
def depthLimit : Nat := 127

/-- The characters that may stand between the parts of a text. -/
def isSpace (c : Char) : Bool :=
  c = ' ' || c = '\n' || c = '\t' || c = '\r'

/-- Skips what may stand between the parts of a text. -/
def skipSpace (cs : List Char) : List Char :=
  cs.dropWhile isSpace

/-! ## Numbers -/

/-- The size of the double nearest to `10 ^ n`. -/
def powerOfTen (n : Nat) : Nat :=
  Double.nearest (Nat.pow 10 n * Double.one) 1

/-- The greatest power of ten that is a double. -/
def greatestPower : Nat := 308

/-- Divides by `10 ^ power`, in steps of at most `10 ^ 308`. -/
def shrink (units power : Nat) : Nat :=
  if power ≤ greatestPower then Double.nearest (units * Double.one) (powerOfTen power)
  else if units = 0 then 0
  else shrink (Double.nearest (units * Double.one) (powerOfTen greatestPower))
    (power - greatestPower)
termination_by power
decreasing_by
  unfold greatestPower at *
  omega

/-- The double for `significand * 10 ^ exponent`; none if it is too large. -/
def scaled (negative : Bool) (significand : Nat) (exponent : Int) : Option Double :=
  let units := Double.nearest (significand * Double.one) 1
  let size :=
    if exponent < 0 then shrink units (-exponent).toNat
    else if exponent.toNat ≤ greatestPower then
      Double.nearest (units * powerOfTen exponent.toNat) Double.one
    else if units = 0 then 0
    else Double.limit
  if h : Double.Representable size then some ⟨negative, size, h⟩ else none

/-- The value of a digit. -/
def digitValue (c : Char) : Nat := c.toNat - 48

/-- Appends digits to a whole number while it fits into 64 bits; also counts the digits left. -/
def absorb (significand : Nat) : List Char → Nat × Nat
  | [] => (significand, 0)
  | c :: rest =>
    let next := significand * 10 + digitValue c
    if next < 0x10000000000000000 then absorb next rest else (significand, rest.length + 1)

/-- The number with the given digits in front of the point, digits behind it and power of ten. -/
def toDouble (negative : Bool) (whole fraction : List Char) (power : Int) :
    Except JsonFault JsonNumber :=
  let (head, dropped) := absorb 0 whole
  let (significand, left) := absorb head fraction
  let exponent : Int := dropped - (fraction.length - left : Nat) + power
  match scaled negative significand exponent with
  | some x => .ok (.double x)
  | none => .error .grammar

/-- The number with the given digits and neither point nor power. Minus zero is a double. -/
def toNumber (negative : Bool) (whole : List Char) : Except JsonFault JsonNumber :=
  let (n, dropped) := absorb 0 whole
  let i : Int := if negative then -(n : Int) else n
  if dropped = 0 ∧ ¬(negative ∧ n = 0) then
    match JsonNumber.ofInt? i with
    | some kept => .ok kept
    | none => toDouble negative whole [] 0
  else toDouble negative whole [] 0

/-- The fault at a place where something else was needed. -/
def faultAt : List Char → JsonFault
  | [] => .eof
  | _ => .grammar

/-- A power of ten, behind its `e`: an optional sign and at least one digit. -/
def power (cs : List Char) : Except JsonFault (Int × List Char) :=
  let (negative, rest) := match cs with
    | '-' :: rest => (true, rest)
    | '+' :: rest => (false, rest)
    | _ => (false, cs)
  let digits := rest.takeWhile Char.isDigit
  let after := rest.dropWhile Char.isDigit
  if digits = [] then .error (faultAt rest)
  else
    let n : Int := Nat.ofDigitChars 10 digits 0
    .ok (if negative then -n else n, after)

/-- The rest of a number behind its digits in front of the point. -/
def numberTail (negative : Bool) (whole : List Char) (rest : List Char) :
    Except JsonFault (JsonNumber × List Char) :=
  match rest with
  | '.' :: tail =>
    let fraction := tail.takeWhile Char.isDigit
    let after := tail.dropWhile Char.isDigit
    if fraction = [] then .error (faultAt tail)
    else match after with
      | c :: behind =>
        if c = 'e' ∨ c = 'E' then do
          let (p, last) ← power behind
          return (← toDouble negative whole fraction p, last)
        else return (← toDouble negative whole fraction 0, after)
      | [] => return (← toDouble negative whole fraction 0, [])
  | c :: behind =>
    if c = 'e' ∨ c = 'E' then do
      let (p, last) ← power behind
      return (← toDouble negative whole [] p, last)
    else return (← toNumber negative whole, rest)
  | [] => return (← toNumber negative whole, [])

/-- A number behind its sign. A zero stands alone in front of the point. -/
def unsigned (negative : Bool) (cs : List Char) : Except JsonFault (JsonNumber × List Char) :=
  match cs.takeWhile Char.isDigit, cs.dropWhile Char.isDigit with
  | [], _ => .error (faultAt cs)
  | '0' :: _ :: _, _ => .error .grammar
  | whole, rest => numberTail negative whole rest

/-! ## Strings -/

/-- The value of a hexadecimal digit. -/
def hexValue? (c : Char) : Option Nat :=
  if c.isDigit then some (c.toNat - 48)
  else if 'a' ≤ c ∧ c ≤ 'f' then some (c.toNat - 87)
  else if 'A' ≤ c ∧ c ≤ 'F' then some (c.toNat - 55)
  else none

/-- The value of four hexadecimal digits. -/
def hexFour? (a b c d : Char) : Option Nat := do
  return (← hexValue? a) * 4096 + (← hexValue? b) * 256 + (← hexValue? c) * 16 + (← hexValue? d)

/-- The fault of an escape with fewer than four characters behind its `u`: the text ended if they
are fewer than four bytes. -/
def shortEscape (cs : List Char) : JsonFault :=
  if (cs.map Char.utf8Size).foldl (· + ·) 0 < 4 then .eof else .grammar

/-- The character that a simple escape stands for. -/
def simpleEscape? (c : Char) : Option Char :=
  if c = '"' ∨ c = '\\' ∨ c = '/' then some c
  else if c = 'b' then some '\x08'
  else if c = 'f' then some '\x0c'
  else if c = 'n' then some '\n'
  else if c = 'r' then some '\r'
  else if c = 't' then some '\t'
  else none

/-- Puts a character in front of what was read behind it. -/
def push (c : Char) (r : Except JsonFault (List Char × List Char)) :
    Except JsonFault (List Char × List Char) :=
  r.map fun (chars, rest) => (c :: chars, rest)

/-- The characters of a string up to its closing quote, and what stands behind that. A character
beyond the basic plane is escaped as a pair of surrogates, which stand only in such pairs. -/
def stringTail : List Char → Except JsonFault (List Char × List Char)
  | [] => .error .eof
  | '"' :: rest => .ok ([], rest)
  | '\\' :: 'u' :: a :: b :: c :: d :: rest =>
    match hexFour? a b c d with
    | none => .error .grammar
    | some n =>
      if 0xDC00 ≤ n ∧ n ≤ 0xDFFF then .error .grammar
      else if 0xD800 ≤ n ∧ n ≤ 0xDBFF then
        match rest with
        | '\\' :: 'u' :: e :: f :: g :: h :: behind =>
          match hexFour? e f g h with
          | none => .error .grammar
          | some m =>
            if 0xDC00 ≤ m ∧ m ≤ 0xDFFF then
              push (Char.ofNat ((n - 0xD800) * 1024 + (m - 0xDC00) + 0x10000)) (stringTail behind)
            else .error .grammar
        | '\\' :: 'u' :: short => .error (shortEscape short)
        | '\\' :: short => .error (faultAt short)
        | short => .error (faultAt short)
      else push (Char.ofNat n) (stringTail rest)
  | '\\' :: 'u' :: short => .error (shortEscape short)
  | '\\' :: c :: rest =>
    match simpleEscape? c with
    | some d => push d (stringTail rest)
    | none => .error .grammar
  | ['\\'] => .error .eof
  | c :: rest => if c.toNat < 0x20 then .error .grammar else push c (stringTail rest)

/-! ## Values -/

/-- Reads the rest of a word. -/
def word (value : Json) : List Char → List Char → Except JsonFault (Json × List Char)
  | [], rest => .ok (value, rest)
  | _ :: _, [] => .error .eof
  | w :: ws, c :: rest => if w = c then word value ws rest else .error .grammar

mutual
/-- Reads a value that may nest `depth` arrays and objects. -/
def value (fuel depth : Nat) (cs : List Char) : Except JsonFault (Json × List Char) :=
  match fuel with
  | 0 => .error .grammar
  | fuel + 1 =>
    match skipSpace cs with
    | [] => .error .eof
    | 'n' :: rest => word .null ['u', 'l', 'l'] rest
    | 't' :: rest => word (.bool true) ['r', 'u', 'e'] rest
    | 'f' :: rest => word (.bool false) ['a', 'l', 's', 'e'] rest
    | '"' :: rest => do
      let (chars, after) ← stringTail rest
      return (.string (String.ofList chars), after)
    | '[' :: rest =>
      match depth with
      | 0 => .error .grammar
      | depth + 1 =>
        match skipSpace rest with
        | ']' :: after => .ok (.array [], after)
        | [] => .error .eof
        | inside => do
          let (items, after) ← items fuel depth inside
          return (.array items, after)
    | '\x7b' :: rest =>
      match depth with
      | 0 => .error .grammar
      | depth + 1 =>
        match skipSpace rest with
        | '\x7d' :: after => .ok (.object [], after)
        | inside => do
          let (fields, after) ← fields fuel depth inside
          return (ofFields fields, after)
    | '-' :: rest => do
      let (n, after) ← unsigned true rest
      return (.number n, after)
    | c :: rest =>
      if c.isDigit then do
        let (n, after) ← unsigned false (c :: rest)
        return (.number n, after)
      else .error .grammar

/-- Reads the items of an array, from the first one on, up to its closing bracket. -/
def items (fuel depth : Nat) (cs : List Char) : Except JsonFault (List Json × List Char) :=
  match fuel with
  | 0 => .error .grammar
  | fuel + 1 => do
    let (first, after) ← value fuel depth cs
    match skipSpace after with
    | ']' :: rest => return ([first], rest)
    | ',' :: rest =>
      match skipSpace rest with
      | ']' :: _ => .error .grammar
      | [] => .error .eof
      | inside => do
        let (others, last) ← items fuel depth inside
        return (first :: others, last)
    | other => .error (faultAt other)

/-- Reads the fields of an object, from the first one on, up to its closing brace. -/
def fields (fuel depth : Nat) (cs : List Char) :
    Except JsonFault (List (String × Json) × List Char) :=
  match fuel with
  | 0 => .error .grammar
  | fuel + 1 =>
    match cs with
    | '"' :: keyText => do
      let (key, afterKey) ← stringTail keyText
      match skipSpace afterKey with
      | ':' :: valueText =>
        let (first, after) ← value fuel depth valueText
        let entry := (String.ofList key, first)
        match skipSpace after with
        | '\x7d' :: rest => return ([entry], rest)
        | ',' :: rest =>
          let (others, last) ← fields fuel depth (skipSpace rest)
          return (entry :: others, last)
        | other => .error (faultAt other)
      | other => .error (faultAt other)
    | other => .error (faultAt other)
end

/-- Reads the value at the front of a text, and what stands behind it. -/
def parsePrefix (depth : Nat) (text : String) : Except JsonFault (Json × List Char) :=
  let cs := text.toList
  value (2 * cs.length + 2) depth cs

/-- Reads a text that holds one value and nothing else, with the given limit of depth. -/
def parseWithin (depth : Nat) (text : String) : Except JsonFault Json := do
  let (j, rest) ← parsePrefix depth text
  if skipSpace rest = [] then return j else .error .grammar

/-- Reads a text that holds one value and nothing else. -/
def parse (text : String) : Except JsonFault Json :=
  parseWithin depthLimit text

/-- Reads the value at the front of a text; what stands behind it is not looked at. -/
def parseFront (text : String) : Except JsonFault Json :=
  (parsePrefix depthLimit text).map Prod.fst

end Switchboard.Json
