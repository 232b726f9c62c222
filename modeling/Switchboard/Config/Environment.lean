import Switchboard.Config.Error
import Switchboard.Text.Blank
import Switchboard.Yaml.Reader
/-!
# Variables of the environment

A part of a configuration with the tag `!env_var` names a variable of the environment, and behind
its name perhaps a fallback. The value of the variable, or the fallback if the variable is not set,
is read as a configuration text of its own and takes the place of the part; what is no such text
stands there as text. Keys are left as they are, and so is what was put in.
-/

namespace Switchboard

/-- The variables that are set, with their values. -/
abbrev Environment := List (String × String)

namespace Environment

/-- The tag of a part that names a variable. -/
def tag : String := "!env_var"

/-- The name of a variable, and the fallback behind the first blank, if there is one. -/
def specification (text : String) : String × Option String :=
  let cs := trimBlanks text.toList
  let name := String.ofList (cs.takeWhile (!isBlank ·))
  match cs.dropWhile (!isBlank ·) with
  | [] => (name, none)
  | _ :: fallback => (name, some (String.ofList (trimBlanks fallback)))

mutual
/-- The names of the variables that a document asks for, in the order in which it does. -/
def asked : Document → List String
  | .tagged name inner =>
    if name = tag then
      match inner.untagged with
      | .string text => [(specification text).1]
      | _ => []
    else asked inner
  | .sequence items => askedByItems items
  | .mapping entries => askedByEntries entries
  | _ => []

/-- The names that items ask for. -/
def askedByItems : List Document → List String
  | [] => []
  | d :: ds => asked d ++ askedByItems ds

/-- The names that the values of entries ask for. -/
def askedByEntries : List (Document × Document) → List String
  | [] => []
  | (_, d) :: rest => asked d ++ askedByEntries rest
end

/-- What the part stands for that names a variable. -/
def lookUp (env : Environment) (text : String) : Except ConfigError Document :=
  let (name, fallback) := specification text
  match (env.lookup name).or fallback with
  | some raw => .ok ((Document.ofYaml? raw).getD (.string raw))
  | none => .error (.variableNotSet name)

mutual
/-- The document with every variable replaced. -/
def substitute (env : Environment) : Document → Except ConfigError Document
  | .tagged name inner =>
    if name = tag then
      match inner.untagged with
      | .string text => env.lookUp text
      | _ => .error .variableNameExpected
    else (substitute env inner).map (.tagged name)
  | .sequence items => (substituteItems env items).map .sequence
  | .mapping entries => (substituteEntries env entries).map .mapping
  | d => .ok d

/-- The items with every variable replaced. -/
def substituteItems (env : Environment) : List Document → Except ConfigError (List Document)
  | [] => .ok []
  | d :: ds => do
    let d ← substitute env d
    let ds ← substituteItems env ds
    return d :: ds

/-- The entries with every variable replaced in their values. -/
def substituteEntries (env : Environment) :
    List (Document × Document) → Except ConfigError (List (Document × Document))
  | [] => .ok []
  | (key, d) :: rest => do
    let d ← substitute env d
    let rest ← substituteEntries env rest
    return (key, d) :: rest
end

/-- Reads a configuration text and replaces every variable in it. -/
def load (env : Environment) (text : String) : Except ConfigError Document :=
  match Document.ofYaml? text with
  | some d => env.substitute d
  | none => .error .malformed

end Environment

end Switchboard
