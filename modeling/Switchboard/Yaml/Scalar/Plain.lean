import Switchboard.Yaml.Scalar.Fold
/-!
# Plain scalars

A plain scalar has no quotes. It ends before a colon that stands alone, before a comment, between
documents and, within brackets or braces, before anything that belongs to these. It may go over
several lines as long as these are indented.
-/

namespace Switchboard.Yaml

/-- Where a plain scalar stands. -/
structure PlainContext where
  /-- It stands within brackets or braces. -/
  inFlow : Bool
  /-- The least column of its further lines. -/
  indent : Int

/-- What reading a plain scalar leads to. -/
structure PlainScalar where
  text : List Char
  /-- There was a line break behind its last word. -/
  crossedLine : Bool
  /-- What stands behind it and behind the gap that follows it. -/
  rest : List Char

/-- The characters that belong to brackets and braces. -/
def isFlowMark (c : Char) : Bool :=
  c = ',' || c = '[' || c = ']' || c = '\x7b' || c = '\x7d'

/-- A word begins here, behind a gap, that belongs to something else than the scalar. -/
def PlainContext.isLeft (context : PlainContext) (column : Nat) (cs : List Char) : Bool :=
  (!context.inFlow && (column : Int) < context.indent) || (column = 0 && separatorFollows cs) ||
    cs.head? = some '#'

/-- A colon within brackets or braces that is joined to what cannot follow it. -/
def PlainContext.isMisplaced (context : PlainContext) : List Char → Bool
  | ':' :: c :: _ => context.inFlow && (isFlowMark c || c = '?')
  | _ => false

/-- The scalar ends before these characters. -/
def PlainContext.isOver (context : PlainContext) : List Char → Bool
  | ':' :: rest => gapFollows rest
  | c :: _ => context.inFlow && isFlowMark c
  | [] => true

/-- The rest of a plain scalar. The text read so far and the gap before the next word have the
newest character first. -/
def plainScalar (context : PlainContext) (text gap : List Char) (column : Nat) :
    List Char → Option PlainScalar
  | [] => some ⟨text.reverse, crossesLine gap, []⟩
  | c :: rest =>
    if isBreak c then plainScalar context text (c :: gap) 0 rest
    else if isBlank c then
      if crossesLine gap && (column : Int) < context.indent && c = '\t' then none
      else plainScalar context text (c :: gap) (column + 1) rest
    else if gap ≠ [] ∧ context.isLeft column (c :: rest) then
      some ⟨text.reverse, crossesLine gap, c :: rest⟩
    else if context.isMisplaced (c :: rest) then none
    else if context.isOver (c :: rest) then some ⟨text.reverse, crossesLine gap, c :: rest⟩
    else
      plainScalar context (c :: ((foldGap gap.reverse).reverse ++ text)) [] (column + 1) rest

end Switchboard.Yaml
