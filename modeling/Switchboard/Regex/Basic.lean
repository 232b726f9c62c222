import Switchboard.Regex.Class
/-!
# Regular expressions

A regular expression matches parts of a text. Whether it matches anywhere is decided by following
sets of positions: `Regex.reach` takes the positions at which a match may begin to those at which
it may end. A repetition without upper bound adds the positions that one more round reaches until
there are no new ones.
-/

namespace Switchboard

/-- The places at the border of a word. -/
inductive WordPlace where
  | border
  | notBorder
  /-- A word begins. -/
  | start
  /-- A word ends. -/
  | finish
  /-- There is no word to the left. -/
  | noneBefore
  /-- There is no word to the right. -/
  | noneAfter
deriving DecidableEq, Repr

/-- What an expression can ask of a position without using up a character. -/
inductive Look where
  | startOfText
  | endOfText
  /-- At the start, or behind a line feed. -/
  | startOfLine
  /-- At the end, or in front of a line feed. -/
  | endOfLine
  /-- As `startOfLine`, where a carriage return, alone or with a line feed, ends a line too. -/
  | startOfAnyLine
  /-- As `endOfLine`, where a carriage return, alone or with a line feed, ends a line too. -/
  | endOfAnyLine
  /-- A place at the border of a word; of ASCII characters only, if `ascii` says so. -/
  | word (place : WordPlace) (ascii : Bool)
deriving DecidableEq, Repr

/-- A regular expression. -/
inductive Regex where
  /-- The empty match. -/
  | empty
  /-- One character of a class. -/
  | char (c : CharClass)
  /-- The empty match at certain positions. -/
  | look (l : Look)
  | seq (a b : Regex)
  | alt (a b : Regex)
  /-- At least `least` times and at most `most` times, if there is a bound. -/
  | repeated (a : Regex) (least : Nat) (most : Option Nat)
deriving Repr

/-- The character in front of a position. -/
def charBefore (text : Array Char) (p : Nat) : Option Char :=
  if p = 0 then none else text[p - 1]?

/-- The position has what is asked of it. -/
def Look.holds (l : Look) (text : Array Char) (p : Nat) : Bool :=
  let before := charBefore text p
  let after := text[p]?
  match l with
  | .startOfText => p = 0
  | .endOfText => p = text.size
  | .startOfLine => before.all (· = '\n')
  | .endOfLine => after.all (· = '\n')
  | .startOfAnyLine => before.all fun c => c = '\n' || (c = '\r' && after != some '\n')
  | .endOfAnyLine => after.all fun c => c = '\r' || (c = '\n' && before != some '\r')
  | .word place ascii =>
    let isWord (c : Char) := isWordChar c && (!ascii || CharClass.isAscii c)
    let left := before.any isWord
    let right := after.any isWord
    match place with
    | .border => left != right
    | .notBorder => left == right
    | .start => !left && right
    | .finish => left && !right
    | .noneBefore => !left
    | .noneAfter => !right

namespace Regex

/-- The positions of two lists, each once. -/
def merge (ps qs : List Nat) : List Nat :=
  ps ++ qs.filter fun q => !ps.contains q

/-- The positions that any number of rounds reaches: each of `tries` rounds starts from the
positions that are new. -/
def closure (round : List Nat → List Nat) (seen new : List Nat) : Nat → List Nat
  | 0 => seen
  | tries + 1 =>
    match (round new).filter fun p => !seen.contains p with
    | [] => seen
    | more => closure round (merge seen more) more.eraseDups tries

/-- The positions after exactly `n` rounds; there are none left once there are none. -/
def rounds (round : List Nat → List Nat) (ps : List Nat) : Nat → List Nat
  | 0 => ps
  | n + 1 => if ps.isEmpty then [] else rounds round (round ps) n

/-- The positions after at most `n` rounds. -/
def upTo (round : List Nat → List Nat) (ps : List Nat) : Nat → List Nat
  | 0 => ps
  | n + 1 => if ps.isEmpty then [] else merge ps (upTo round (round ps) n)

/-- The positions at which a match can end that begins at one of the given ones. -/
def reach (text : Array Char) : Regex → List Nat → List Nat
  | empty, ps => ps
  | char c, ps => (ps.filter fun p => (text[p]?).any c.contains).map (· + 1)
  | look l, ps => ps.filter (l.holds text)
  | seq a b, ps => reach text b (reach text a ps)
  | alt a b, ps => merge (reach text a ps) (reach text b ps)
  | repeated a least most, ps =>
    let first := rounds (reach text a) ps least
    match most with
    | none => closure (reach text a) first first (text.size + 1)
    | some n => upTo (reach text a) first (min (n - least) (text.size + 1))

/-- The expression matches some part of the text. -/
def matchesIn (r : Regex) (text : String) : Bool :=
  let chars := text.toList.toArray
  !(r.reach chars (List.range (chars.size + 1))).isEmpty

end Regex

end Switchboard
