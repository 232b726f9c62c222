/-!
# Media types

A body is read as JSON if its media type says so: `application/json`, or `application/` with a
subtype that ends in `+json`. What stands in front of the last plus sign is the subtype, what
stands behind it the suffix. Case does not matter, and parameters may follow, if they are well
formed.
-/

namespace Switchboard.MediaType

/-- The characters of names in a media type. -/
def isToken (c : Char) : Bool :=
  c.isAlphanum || "!#$%&'*+-.^_\x60|~".toList.contains c

/-- The characters between quotes. -/
def isQuotable (c : Char) : Bool :=
  c.toNat > 31 && c.toNat != 127 && c != '"'

/-- Skips spaces. -/
def skipSpaces (cs : List Char) : List Char := cs.dropWhile (· = ' ')

/-- The rest behind a parameter value in quotes, at the next parameter. -/
def afterQuoted (cs : List Char) : Option (List Char) :=
  match cs.dropWhile isQuotable with
  | '"' :: behind =>
    if cs.takeWhile isQuotable = [] then none
    else
      match skipSpaces behind with
      | [] => some []
      | ';' :: rest => some rest
      | _ => none
  | _ => none

/-- The rest behind a parameter value without quotes, at the next parameter. -/
def afterPlain (cs : List Char) : Option (List Char) :=
  match cs.dropWhile isToken with
  | [] => some []
  | ';' :: rest => if cs.takeWhile isToken = [] then none else some rest
  | _ => none

/-- Every parameter is a name, an equals sign and a value. -/
def parametersOk (fuel : Nat) (cs : List Char) : Bool :=
  match fuel with
  | 0 => false
  | fuel + 1 =>
    match skipSpaces cs with
    | [] => true
    | start =>
      match start.takeWhile isToken, start.dropWhile isToken with
      | _ :: _, '=' :: '"' :: value => (afterQuoted value).any (parametersOk fuel)
      | _ :: _, '=' :: value => (afterPlain value).any (parametersOk fuel)
      | _, _ => false

/-- Splits a name at its last plus sign, which does not come first. -/
def splitSuffix (name : List Char) : List Char × Option (List Char) :=
  let suffix := (name.reverse.takeWhile (· != '+')).reverse
  let stem := name.take (name.length - suffix.length - 1)
  if suffix.length < name.length ∧ stem ≠ [] then (stem, some suffix) else (name, none)

/-- The media type is one of JSON. -/
def isJson (text : String) : Bool :=
  let cs := text.toList
  let top := cs.takeWhile isToken
  match cs.dropWhile isToken with
  | '/' :: behind =>
    let name := behind.takeWhile isToken
    let rest := behind.dropWhile isToken
    let parameters := match rest with
      | [] => true
      | c :: others => (c = ';' || c = ' ') && parametersOk (cs.length + 1) others
    let lower (cs : List Char) := String.ofList (cs.map Char.toLower)
    let (subtype, suffix) := splitSuffix name
    name ≠ [] && parameters && lower top = "application" &&
      (lower subtype = "json" || suffix.map lower = some "json")
  | _ => false

end Switchboard.MediaType
