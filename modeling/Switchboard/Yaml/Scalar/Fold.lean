import Switchboard.Yaml.Line
/-!
# Folded gaps

Inside a plain or quoted scalar the blanks and line breaks between two words form a gap. A gap
within a line is kept. A gap with line breaks loses its blanks, and its first line break becomes a
space or, if there are more, is dropped.
-/

namespace Switchboard.Yaml

/-- What a gap stands for. -/
def foldGap (gap : List Char) : List Char :=
  match gap.filter isBreak with
  | [] => gap
  | ['\n'] => [' ']
  | '\n' :: more => more
  | breaks => breaks

/-- What a gap stands for whose first line break was escaped and is not among its characters. -/
def foldEscapedGap (gap : List Char) : List Char :=
  gap.filter isBreak

/-- The gap goes over the end of a line. -/
def crossesLine (gap : List Char) : Bool :=
  gap.any isBreak

end Switchboard.Yaml
