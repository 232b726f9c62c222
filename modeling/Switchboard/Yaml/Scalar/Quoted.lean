import Switchboard.Yaml.Scalar.Fold
/-!
# Quoted scalars

Between single quotes every character stands for itself, and two quotes stand for one. Between
double quotes a backslash begins an escape; before the end of a line it takes the line break away.
A quoted scalar may go over several lines, but not over a separator of documents.

The readers take the characters behind the opening quote and answer the text, together with what
stands behind the closing quote. They carry the text read so far and the gap before the next word,
both with the newest character first.
-/

namespace Switchboard.Yaml

/-- The gap before the next word. -/
structure Gap where
  /-- Its blanks and line breaks, the newest first. -/
  read : List Char
  /-- It begins with an escaped line break. -/
  escaped : Bool

namespace Gap

/-- There is no gap. -/
def none : Gap := ⟨[], false⟩

/-- The gap begins with an escaped line break. -/
def afterEscape : Gap := ⟨[], true⟩

/-- The gap with one more character. -/
def push (g : Gap) (c : Char) : Gap := { g with read := c :: g.read }

/-- The text followed by what the gap stands for, the newest character first. -/
def close (g : Gap) (text : List Char) : List Char :=
  let folded := if g.escaped then foldEscapedGap g.read.reverse else foldGap g.read.reverse
  folded.reverse ++ text

/-- The next character is the first of its line. -/
def endsLine (g : Gap) : Bool :=
  match g.read with
  | c :: _ => isBreak c
  | [] => g.escaped

end Gap

/-- The rest of a scalar in single quotes. -/
def singleQuoted (text : List Char) (gap : Gap) : List Char → Option (List Char × List Char)
  | [] => none
  | '\'' :: '\'' :: rest => singleQuoted ('\'' :: gap.close text) .none rest
  | c :: rest =>
    if c = '\'' then some ((gap.close text).reverse, rest)
    else if isGap c then singleQuoted text (gap.push c) rest
    else if gap.endsLine && separatorFollows (c :: rest) then none
    else singleQuoted (c :: gap.close text) .none rest

/-- The value of a hexadecimal digit. -/
def hexValue? (c : Char) : Option Nat :=
  if c.isDigit then some (c.toNat - '0'.toNat)
  else if 'a' ≤ c ∧ c ≤ 'f' then some (c.toNat - 'a'.toNat + 10)
  else if 'A' ≤ c ∧ c ≤ 'F' then some (c.toNat - 'A'.toNat + 10)
  else none

/-- The number that hexadecimal digits stand for. -/
def hexNumber? (digits : List Char) : Option Nat :=
  digits.foldlM (fun n c => (hexValue? c).map (16 * n + ·)) 0

/-- The character with the code point that hexadecimal digits stand for. -/
def hexChar? (digits : List Char) : Option Char :=
  match hexNumber? digits with
  | some n => if n.isValidChar then some (Char.ofNat n) else none
  | none => none

/-- The character that a letter behind a backslash stands for. -/
def escaped? : Char → Option Char
  | '0' => some '\x00'
  | 'a' => some '\x07'
  | 'b' => some '\x08'
  | 't' | '\t' => some '\t'
  | 'n' => some '\n'
  | 'v' => some '\x0b'
  | 'f' => some '\x0c'
  | 'r' => some '\r'
  | 'e' => some '\x1b'
  | ' ' => some ' '
  | '"' => some '"'
  | '/' => some '/'
  | '\\' => some '\\'
  | 'N' => some '\u0085'
  | '_' => some '\u00a0'
  | 'L' => some '\u2028'
  | 'P' => some '\u2029'
  | _ => none

/-- How many hexadecimal digits follow a letter behind a backslash. -/
def escapeWidth : Char → Nat
  | 'x' => 2
  | 'u' => 4
  | 'U' => 8
  | _ => 0

/-- The character of an escape, given what stands behind its backslash, and how many characters it
has there. -/
def escape? : List Char → Option (Char × Nat)
  | [] => none
  | c :: rest =>
    match escapeWidth c with
    | 0 => (escaped? c).map (·, 1)
    | width =>
      if width ≤ rest.length then (hexChar? (rest.take width)).map (·, width + 1) else none

/-- The rest of a scalar in double quotes; the next `skipped` characters belong to an escape that
was read. -/
def doubleQuoted (text : List Char) (gap : Gap) (skipped : Nat) :
    List Char → Option (List Char × List Char)
  | [] => none
  | c :: rest =>
    match skipped with
    | skipped + 1 => doubleQuoted text gap skipped rest
    | 0 =>
      if c = '"' then some ((gap.close text).reverse, rest)
      else if isGap c then doubleQuoted text (gap.push c) 0 rest
      else if gap.endsLine && separatorFollows (c :: rest) then none
      else if c = '\\' then
        if rest.head?.any isBreak then doubleQuoted (gap.close text) .afterEscape 1 rest
        else
          match escape? rest with
          | some (char, width) => doubleQuoted (char :: gap.close text) .none width rest
          | none => none
      else doubleQuoted (c :: gap.close text) .none 0 rest

end Switchboard.Yaml
