import Switchboard.Yaml.Line
/-!
# Block scalars

A block scalar stands on lines of its own, which are indented. After a bar its line breaks are
kept. After a greater-than sign the line break between two lines becomes a space, unless one of
the lines begins with a blank. A sign behind these tells what becomes of the line breaks at the
end: one is kept (`Chomping.clip`), none (`strip`) or all (`keep`).
-/

namespace Switchboard.Yaml

/-- What becomes of the line breaks at the end. -/
inductive Chomping where
  | strip
  | clip
  | keep
deriving DecidableEq

/-- What is written behind the bar or the greater-than sign. -/
structure BlockHeader where
  chomping : Chomping
  /-- How much deeper the lines are indented, if this is given. -/
  increment : Option Nat

/-- A sign for the line breaks at the end. -/
def chomping? : Char → Option Chomping
  | '+' => some .keep
  | '-' => some .strip
  | _ => none

/-- The signs of a header in either order. A depth of zero is an error. -/
def blockSigns (cs : List Char) : Option (BlockHeader × List Char) :=
  let depth (cs : List Char) : Option (Option Nat × List Char) :=
    match cs with
    | c :: rest =>
      if c = '0' then none
      else if c.isDigit then some (some (c.toNat - '0'.toNat), rest)
      else some (none, cs)
    | [] => some (none, [])
  match cs.head?.bind chomping? with
  | some chomping => (depth (cs.drop 1)).map fun (increment, rest) => (⟨chomping, increment⟩, rest)
  | none =>
    match depth cs with
    | none => none
    | some (none, rest) => some (⟨.clip, none⟩, rest)
    | some (increment, rest) =>
      match rest.head?.bind chomping? with
      | some chomping => some (⟨chomping, increment⟩, rest.drop 1)
      | none => some (⟨.clip, increment⟩, rest)

/-- A header with what follows it up to the end of the line: blanks and perhaps a comment. -/
def blockHeader (cs : List Char) : Option (BlockHeader × List Char) := do
  let (header, rest) ← blockSigns cs
  let rest := rest.dropWhile isBlank
  let rest := if rest.head? = some '#' then rest.dropWhile (!isBreak ·) else rest
  if lineEnds rest then some (header, rest.drop 1) else none

/-- The empty lines before a line of text, and where that line begins. -/
structure Indentation where
  /-- The line breaks, the newest first. -/
  breaks : List Char
  /-- The column of the text. -/
  column : Nat
  /-- The greatest column that any of the lines reached. -/
  deepest : Nat
  /-- The text. -/
  rest : List Char

/-- Skips empty lines and the indentation up to `indent`, or all of it where the indentation is
not known yet. A tab in the indentation is an error. -/
def indentation (indent : Option Nat) (breaks : List Char) (column deepest : Nat) :
    List Char → Option Indentation
  | [] => some ⟨breaks, column, max deepest column, []⟩
  | c :: rest =>
    let inside := indent.all (column < ·)
    if inside && c = ' ' then indentation indent breaks (column + 1) deepest rest
    else if inside && c = '\t' then none
    else if isBreak c then indentation indent (c :: breaks) 0 (max deepest column) rest
    else some ⟨breaks, column, max deepest column, c :: rest⟩

/-- What stands between two lines of text: the line break behind the first and the empty lines. -/
def joint (folded afterBlank beforeBlank : Bool) (lineBreak : Option Char) (breaks : List Char) :
    List Char :=
  if folded && lineBreak = some '\n' && !afterBlank && !beforeBlank then
    if breaks = [] then [' '] else breaks
  else lineBreak.toList ++ breaks

/-- The lines of text. `text` is what was read before; `lineBreak` is the line break at its end,
and `afterBlank` says that its last line began with a blank. The answer is the text, and what
stands behind it. Every line takes up a character, so that `fuel` characters are enough. -/
def blockLines (folded : Bool) (chomping : Chomping) (indent : Nat) :
    Nat → List Char → Option Char → Bool → Indentation → Option (List Char × List Char)
  | 0, _, _, _, _ => none
  | fuel + 1, text, lineBreak, afterBlank, place =>
    if place.column = indent ∧ place.rest ≠ [] then
      let blank := place.rest.head?.any isBlank
      let text := text ++ joint folded afterBlank blank lineBreak place.breaks.reverse
      let line := place.rest.takeWhile (!isBreak ·)
      let behind := place.rest.dropWhile (!isBreak ·)
      match indentation (some indent) [] 0 0 (behind.drop 1) with
      | none => none
      | some next =>
        if behind = [] then
          some (text ++ line, [])
        else blockLines folded chomping indent fuel (text ++ line) behind.head? blank next
    else
      let ending := match chomping with
        | .strip => []
        | .clip => lineBreak.toList
        | .keep => lineBreak.toList ++ place.breaks.reverse
      some (text ++ ending, place.rest)

/-- A block scalar, given what stands behind its first sign. `parent` is the column of the
collection around it, or `-1`. -/
def blockScalar (folded : Bool) (parent : Int) (cs : List Char) :
    Option (List Char × List Char) := do
  let (header, rest) ← blockHeader cs
  let given := header.increment.map fun n => if 0 ≤ parent then parent.toNat + n else n
  let first ← indentation given [] 0 0 rest
  let indent := given.getD (max (max first.deepest (parent + 1).toNat) 1)
  blockLines folded header.chomping indent (rest.length + 1) [] none false first

end Switchboard.Yaml
