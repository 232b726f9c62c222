import Switchboard.Yaml.Token
import Switchboard.Yaml.Tag
import Switchboard.Yaml.Scalar.Quoted
import Switchboard.Yaml.Scalar.Plain
import Switchboard.Yaml.Scalar.Block
/-!
# Cutting a text into tokens

The lexer goes through the text and keeps a stack of the columns at which blocks began: a token
further to the left ends the blocks that it is not part of.

That something is a key is seen only at the colon behind it. So the lexer remembers the last place
where a key may have begun (`Candidate`), one within every pair of brackets or braces. If the colon
comes on the same line, and not too far away, the token for a key is put in at that place. A
candidate at the column of its block has to be a key.

Directives are not supported: a percent sign at the begin of a line is an error, as it is at the
begin of any other token.
-/

namespace Switchboard.Yaml

/-- A place where a key may have begun. -/
structure Candidate where
  /-- How many tokens came before. -/
  index : Nat
  /-- Where it begins. -/
  place : Cursor
  /-- It is an error if this is no key. -/
  required : Bool

/-- How far the lexer has come. -/
structure Lexer where
  place : Cursor
  /-- The column of the block, or `-1`. -/
  indent : Int
  /-- The columns of the blocks around it, innermost first. -/
  outerIndents : List Int
  /-- A key may begin here. -/
  mayStartKey : Bool
  /-- Where a key may have begun. -/
  candidate : Option Candidate
  /-- The candidates outside of the brackets and braces that are open, innermost first. -/
  outerCandidates : List (Option Candidate)
  tokens : Array Token

namespace Lexer

/-- The begin of a text. -/
def start (text : List Char) : Lexer := ⟨.start text, -1, [], true, none, [], #[]⟩

/-- Brackets or braces are open. -/
def inFlow (l : Lexer) : Bool := !l.outerCandidates.isEmpty

/-- Adds a token. -/
def emit (l : Lexer) (t : Token) : Lexer := { l with tokens := l.tokens.push t }

/-- Adds the token of the next `count` characters. -/
def take (l : Lexer) (count : Nat) (t : Token) : Lexer :=
  { l with place := l.place.skip count }.emit t

/-! ## Blocks -/

/-- Begins a block at a column, unless it is begun already. Its token is put in before the token
with number `index`. -/
def enterBlock (l : Lexer) (column index : Nat) (t : Token) : Lexer :=
  if l.inFlow ∨ (column : Int) ≤ l.indent then l
  else { l with
    indent := column
    outerIndents := l.indent :: l.outerIndents
    tokens := l.tokens.insertIdxIfInBounds index t }

/-- Ends the blocks that began to the right of a column. -/
def leaveBlocks (l : Lexer) (column : Int) : Lexer :=
  if l.inFlow then l
  else
    let left := (l.indent :: l.outerIndents).takeWhile (column < ·)
    let remaining := (l.indent :: l.outerIndents).dropWhile (column < ·)
    { l with
      indent := remaining.headD (-1)
      outerIndents := remaining.tail
      tokens := l.tokens ++ left.map fun _ => Token.blockEnd }

/-! ## Candidates for keys -/

/-- The longest distance between the begin of a key and its colon. -/
def keyReach : Nat := 1024

/-- The candidate can be a key no longer. -/
def isStale (l : Lexer) (c : Candidate) : Bool :=
  c.place.line < l.place.line || c.place.offset + keyReach < l.place.offset

/-- Forgets a candidate; one that has to be a key is an error. -/
def forget : Option Candidate → Option (Option Candidate)
  | some c => if c.required then none else some none
  | none => some none

/-- Forgets the candidates that can be keys no longer. -/
def dropStale (l : Lexer) : Option Lexer := do
  let check (c : Option Candidate) : Option (Option Candidate) :=
    if c.any l.isStale then forget c else some c
  let candidate ← check l.candidate
  let outerCandidates ← l.outerCandidates.mapM check
  return { l with candidate, outerCandidates }

/-- Forgets the candidate of the innermost brackets or braces. -/
def dropCandidate (l : Lexer) : Option Lexer := do
  return { l with candidate := ← forget l.candidate }

/-- Remembers that a key may begin here. -/
def saveCandidate (l : Lexer) : Option Lexer :=
  if l.mayStartKey then do
    let l ← l.dropCandidate
    let required := !l.inFlow && l.indent = l.place.column
    return { l with candidate := some ⟨l.tokens.size, l.place, required⟩ }
  else some l

/-! ## Tokens -/

/-- Skips blanks, comments and line breaks. Behind a line break a key may begin again; where one
may begin, tabs are no blanks. A mark of the byte order is skipped at the begin of a line. -/
def skipGaps (inFlow inComment mayStartKey : Bool) (column : Nat) :
    List Char → Bool × List Char
  | [] => (mayStartKey, [])
  | c :: rest =>
    if isBreak c then skipGaps inFlow false (mayStartKey || !inFlow) 0 rest
    else if inComment || c = ' ' || (c = '\t' && (inFlow || !mayStartKey)) ||
        (c = '\ufeff' && column = 0) then
      skipGaps inFlow inComment mayStartKey (column + 1) rest
    else if c = '#' then skipGaps inFlow true mayStartKey (column + 1) rest
    else (mayStartKey, c :: rest)

/-- The end of the text. -/
def finish (l : Lexer) : Option Lexer :=
  (l.leaveBlocks (-1)).dropCandidate

/-- A sign between documents. -/
def separator (l : Lexer) (t : Token) : Option Lexer := do
  let l ← (l.leaveBlocks (-1)).dropCandidate
  return { l with mayStartKey := false }.take 3 t

/-- An opening bracket or brace. -/
def openFlow (l : Lexer) (t : Token) : Option Lexer := do
  let l ← l.saveCandidate
  return { l with
    candidate := none
    outerCandidates := l.candidate :: l.outerCandidates
    mayStartKey := true }.take 1 t

/-- A closing bracket or brace. -/
def closeFlow (l : Lexer) (t : Token) : Option Lexer := do
  let l ← l.dropCandidate
  return { l with
    candidate := l.outerCandidates.headD none
    outerCandidates := l.outerCandidates.tail
    mayStartKey := false }.take 1 t

/-- A comma within brackets or braces. -/
def flowEntry (l : Lexer) : Option Lexer := do
  let l ← l.dropCandidate
  return { l with mayStartKey := true }.take 1 .flowEntry

/-- A sign that begins a block of its own kind where a key could begin. -/
def blockSign (l : Lexer) (block : Token) : Option Lexer :=
  if l.inFlow then some l
  else if l.mayStartKey then some (l.enterBlock l.place.column l.tokens.size block)
  else none

/-- A hyphen before an item. -/
def blockEntry (l : Lexer) : Option Lexer := do
  let l ← (← l.blockSign .blockSequenceStart).dropCandidate
  return { l with mayStartKey := true }.take 1 .blockEntry

/-- A question mark before a key. -/
def explicitKey (l : Lexer) : Option Lexer := do
  let l ← (← l.blockSign .blockMappingStart).dropCandidate
  return { l with mayStartKey := !l.inFlow }.take 1 .key

/-- A colon before a value: behind a candidate, which thus is a key, or on its own. -/
def valueSign (l : Lexer) : Option Lexer :=
  match l.candidate with
  | some c =>
    let l := { l with
      candidate := none
      mayStartKey := false
      tokens := l.tokens.insertIdxIfInBounds c.index .key }
    some ((l.enterBlock c.place.column c.index .blockMappingStart).take 1 .value)
  | none => do
    let l ← l.blockSign .blockMappingStart
    return { l with mayStartKey := !l.inFlow }.take 1 .value

/-- Goes on behind something that may have been a key. -/
def behind (l : Lexer) (t : Token) (rest : List Char) : Option Lexer := do
  let l ← l.saveCandidate
  return { l with place := l.place.skipTo rest, mayStartKey := false }.emit t

/-- The name behind an ampersand or an asterisk. -/
def name (l : Lexer) (make : String → Token) (cs : List Char) : Option Lexer :=
  let text := cs.takeWhile isNameChar
  let rest := cs.dropWhile isNameChar
  if text ≠ [] ∧ (gapFollows rest ∨ rest.head?.any "?:,]\x7d%@\x60".toList.contains) then
    l.behind (make (String.ofList text)) rest
  else none

/-- A tag, given what stands behind its exclamation mark. -/
def tag (l : Lexer) (cs : List Char) : Option Lexer :=
  (readTag l.inFlow cs).bind fun (name, rest) => l.behind (.tag name) rest

/-- A quoted scalar, given how it was read. -/
def quoted (l : Lexer) (result : Option (List Char × List Char)) : Option Lexer :=
  result.bind fun (text, rest) => l.behind (.scalar false (String.ofList text)) rest

/-- A plain scalar. Behind a line break a key may begin. -/
def plain (l : Lexer) : Option Lexer := do
  let scalar ← plainScalar ⟨l.inFlow, l.indent + 1⟩ [] [] l.place.column l.place.rest
  let l ← l.behind (.scalar true (String.ofList scalar.text)) scalar.rest
  return { l with mayStartKey := scalar.crossedLine }

/-- A block scalar, given what stands behind its sign. -/
def block (l : Lexer) (folded : Bool) (cs : List Char) : Option Lexer := do
  let l ← l.dropCandidate
  let (text, rest) ← blockScalar folded l.indent cs
  return { l with place := l.place.skipTo rest, mayStartKey := true }.emit
    (.scalar false (String.ofList text))

/-- The token that begins with the character `c`, behind which stands `rest`. -/
def token (l : Lexer) (c : Char) (rest : List Char) : Option Lexer :=
  match c with
  | '[' => l.openFlow .flowSequenceStart
  | '\x7b' => l.openFlow .flowMappingStart
  | ']' => l.closeFlow .flowSequenceEnd
  | '\x7d' => l.closeFlow .flowMappingEnd
  | ',' => l.flowEntry
  | '-' => if gapFollows rest then l.blockEntry else l.plain
  | '?' => if l.inFlow || gapFollows rest then l.explicitKey else l.plain
  | ':' => if l.inFlow || gapFollows rest then l.valueSign else l.plain
  | '*' => l.name .reference rest
  | '&' => l.name .anchor rest
  | '!' => l.tag rest
  | '|' => if l.inFlow then none else l.block false rest
  | '>' => if l.inFlow then none else l.block true rest
  | '\'' => l.quoted (singleQuoted [] .none rest)
  | '"' => l.quoted (doubleQuoted [] .none 0 rest)
  | '%' | '@' | '\x60' | '\t' => none
  | _ => l.plain

/-- The next token. -/
def step (l : Lexer) (c : Char) (rest : List Char) : Option Lexer :=
  if l.place.column = 0 ∧ separatorFollows (c :: rest) then
    l.separator (if c = '-' then .documentStart else .documentEnd)
  else l.token c rest

/-- All tokens up to the end of the text. Every token takes up a character, so that one more than
the text has are enough. -/
def run (l : Lexer) : Nat → Option (List Token)
  | 0 => none
  | fuel + 1 => do
    let (mayStartKey, rest) := skipGaps l.inFlow false l.mayStartKey l.place.column l.place.rest
    let l ← { l with place := l.place.skipTo rest, mayStartKey }.dropStale
    let l := l.leaveBlocks l.place.column
    match rest with
    | [] => return (← l.finish).tokens.toList
    | c :: rest => (← l.step c rest).run fuel

end Lexer

/-- The tokens of a text. -/
def Token.scan (text : String) : Option (List Token) :=
  let cs := match text.toList with
    | '\ufeff' :: rest => rest
    | cs => cs
  if cs.all isAllowed then
    let lines := unifyBreaks cs
    (Lexer.start lines).run (lines.length + 1)
  else none

end Switchboard.Yaml
