import Switchboard.Http.Octets
import Switchboard.Yaml.Line
/-!
# Tags

A tag is written behind an exclamation mark: a local tag is the name that follows, two marks stand
for the tags of the standard types, and a name of any form stands between angle brackets. Escapes
in a name are octets in hexadecimal digits. A tag is followed by a blank, a line break, the end of
the text or, within brackets and braces, a comma.
-/

namespace Switchboard.Yaml

/-- What the tags of the standard types begin with. -/
def standardTag : String := "tag:yaml.org,2002:"

/-- The characters of a tag; the last three only between angle brackets. -/
def isTagChar (inBrackets : Bool) (c : Char) : Bool :=
  isNameChar c || ";/?:@&=+$.%!~*'()".toList.contains c || (inBrackets && ",[]".toList.contains c)

/-- Every percent sign has two hexadecimal digits behind it. -/
def areEscapes : List Char → Bool
  | [] => true
  | '%' :: a :: b :: rest => hexadecimal a && hexadecimal b && areEscapes rest
  | c :: rest => c ≠ '%' && areEscapes rest
where
  /-- The character is a hexadecimal digit. -/
  hexadecimal (c : Char) : Bool :=
    c.isDigit || ('a' ≤ c && c ≤ 'f') || ('A' ≤ c && c ≤ 'F')

/-- The name that a run of tag characters stands for. -/
def tagName? (cs : List Char) : Option String :=
  if areEscapes cs then Octets.text? (Octets.unescape (Octets.ofText (String.ofList cs)))
  else none

/-- A name between angle brackets, given what stands behind the opening one. -/
def bracketedTag (cs : List Char) : Option (String × List Char) :=
  let name := cs.takeWhile (isTagChar true)
  match cs.dropWhile (isTagChar true) with
  | '>' :: rest => if name = [] then none else (tagName? name).map (·, rest)
  | _ => none

/-- A tag without brackets, given what stands behind the first exclamation mark. A second mark
that does not follow the first one belongs to a name that is not declared. -/
def shortTag (cs : List Char) : Option (String × List Char) :=
  let handle := cs.takeWhile isNameChar
  match handle, cs.dropWhile isNameChar with
  | [], '!' :: rest =>
    let name := rest.takeWhile (isTagChar false)
    if name = [] then none
    else (tagName? name).map fun s => (standardTag ++ s, rest.dropWhile (isTagChar false))
  | _ :: _, '!' :: _ => none
  | _, _ =>
    (tagName? (cs.takeWhile (isTagChar false))).map fun s =>
      ("!" ++ s, cs.dropWhile (isTagChar false))

/-- A tag, given what stands behind its exclamation mark, and what stands behind it. -/
def readTag (inFlow : Bool) (cs : List Char) : Option (String × List Char) := do
  let (name, rest) ← match cs with
    | '<' :: rest => bracketedTag rest
    | _ => shortTag cs
  if gapFollows rest || (inFlow && rest.head? = some ',') then some (name, rest) else none

end Switchboard.Yaml
