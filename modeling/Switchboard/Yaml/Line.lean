/-!
# Characters and lines of a configuration text

A configuration text is a run of lines. The usual line breaks all become a line feed before the
text is read (`Line.unify`); the two separators of lines and paragraphs stay as they are. Control
characters are not allowed.

A `Cursor` stands before the characters that are still to be read and knows its line, its column
and how far it has come.
-/

namespace Switchboard.Yaml

/-- A space or a tab. -/
def isBlank (c : Char) : Bool := c = ' ' || c = '\t'

/-- A line break, when the usual ones have become line feeds. -/
def isBreak (c : Char) : Bool := c = '\n' || c = '\u2028' || c = '\u2029'

/-- A blank or a line break. -/
def isGap (c : Char) : Bool := isBlank c || isBreak c

/-- The characters of names. -/
def isNameChar (c : Char) : Bool := c.isAlphanum || c = '_' || c = '-'

/-- The character may stand in a text. -/
def isAllowed (c : Char) : Bool :=
  let n := c.toNat
  n = 0x09 || n = 0x0A || n = 0x0D || (0x20 ≤ n && n ≤ 0x7E) || n = 0x85 ||
    (0xA0 ≤ n && n ≤ 0xFFFD) || 0x10000 ≤ n

/-- What comes next is a blank, a line break or the end. -/
def gapFollows : List Char → Bool
  | [] => true
  | c :: _ => isGap c

/-- What comes next is a line break or the end. -/
def lineEnds : List Char → Bool
  | [] => true
  | c :: _ => isBreak c

/-- Three hyphens or three points, and nothing joined to them: at the begin of a line they stand
between documents. -/
def separatorFollows : List Char → Bool
  | '-' :: '-' :: '-' :: rest => gapFollows rest
  | '.' :: '.' :: '.' :: rest => gapFollows rest
  | _ => false

/-- Makes every usual line break a line feed. -/
def unifyBreaks : List Char → List Char
  | [] => []
  | '\r' :: '\n' :: rest => '\n' :: unifyBreaks rest
  | c :: rest => (if c = '\r' ∨ c = '\u0085' then '\n' else c) :: unifyBreaks rest

/-- A place in a text. -/
structure Cursor where
  /-- What is still to be read. -/
  rest : List Char
  /-- Lines are counted from zero. -/
  line : Nat
  /-- Columns are counted from zero. -/
  column : Nat
  /-- How many characters were read. -/
  offset : Nat

namespace Cursor

/-- The begin of a text. -/
def start (text : List Char) : Cursor := ⟨text, 0, 0, 0⟩

/-- The place behind the next `count` characters. -/
def skip (c : Cursor) : Nat → Cursor
  | 0 => c
  | count + 1 =>
    match c.rest with
    | [] => c
    | x :: rest =>
      if isBreak x then skip ⟨rest, c.line + 1, 0, c.offset + 1⟩ count
      else skip ⟨rest, c.line, c.column + 1, c.offset + 1⟩ count

/-- The place where `rest`, which is an end of what is still to be read, begins. -/
def skipTo (c : Cursor) (rest : List Char) : Cursor :=
  c.skip (c.rest.length - rest.length)

end Cursor

end Switchboard.Yaml
