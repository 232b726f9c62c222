import Switchboard.Error
import Switchboard.Json.Basic
/-!
# Addresses

Every node of the tree has an address of the form `scheme://one/two/three`: a scheme and the names
on the way from the root. The root is the bare scheme, `scheme://`. A segment that is a lone `*`
is a wildcard, which only queries and watches give a meaning; an address with a wildcard is a
pattern, one without is concrete.

`Address.parse` reads an address and `Address.text` writes it. One slash at the end is dropped on
reading, so an address has at most two spellings, and `Address.text` is the shorter one.
-/

namespace Switchboard

/-- A scheme and the segments below it. -/
structure Address where
  /-- The part in front of `://`. -/
  scheme : String
  /-- The names from the root down. -/
  segments : List String
deriving DecidableEq, Repr, Inhabited

namespace Address

/-- The segment that stands for every child. -/
def wildcard : String := "*"

/-- The scheme of a store that is given none. -/
def defaultScheme : String := "status"

/-- The address of the root. -/
def root (scheme : String) : Address := ⟨scheme, []⟩

/-- The address as text. -/
def text (a : Address) : String :=
  a.scheme ++ "://" ++ "/".intercalate a.segments

/-- The address of the first `depth` segments. -/
def ancestor (a : Address) (depth : Nat) : Address :=
  ⟨a.scheme, a.segments.take depth⟩

/-- The addresses above this one, from its parent up to the root. -/
def ancestors (a : Address) : List Address :=
  (List.range a.segments.length).reverse.map a.ancestor

/-- The address of the child called `name`. -/
def child (a : Address) (name : String) : Address :=
  ⟨a.scheme, a.segments ++ [name]⟩

/-- The address one segment up; the root has none. -/
def parent? (a : Address) : Option Address :=
  if a.segments = [] then none else some ⟨a.scheme, a.segments.dropLast⟩

/-- The last segment; the root has none. -/
def name? (a : Address) : Option String :=
  a.segments.getLast?

/-- The address is the bare scheme. -/
def isRoot (a : Address) : Bool :=
  a.segments.isEmpty

/-- Some segment is a wildcard. -/
def hasWildcard (a : Address) : Bool :=
  a.segments.contains wildcard

/-- Refuses a pattern where one node has to be named. -/
def requireConcrete (a : Address) : Except StoreError Unit :=
  if a.hasWildcard then .error (.wildcardNotAllowed a.text) else .ok ()

/-- Builds an address from segments that are split already; only empty ones are refused. -/
def ofSegments (scheme : String) (segments : List String) : Except StoreError Address :=
  let a : Address := ⟨scheme, segments⟩
  if segments.any String.isEmpty then .error (.emptySegment a.text) else .ok a

/-- Cuts a text in two at the first `://`. -/
def cutScheme : List Char → Option (List Char × List Char)
  | [] => none
  | ':' :: '/' :: '/' :: rest => some ([], rest)
  | c :: rest => (cutScheme rest).map fun (scheme, path) => (c :: scheme, path)

/-- Drops one slash at the end, if there is one. -/
def dropSlash (path : List Char) : List Char :=
  if path.getLast? = some '/' then path.dropLast else path

/-- The segments of a path: none if it is empty, else the pieces between its slashes. -/
def splitPath (path : List Char) : List (List Char) :=
  if path = [] then [] else path.splitOn '/'

/-- Reads an address. The scheme is what stands in front of the first `://`. -/
def parse (url : String) : Except StoreError Address :=
  match cutScheme url.toList with
  | none => .error (.invalidUrl url)
  | some (scheme, path) =>
    if scheme = [] ∨ '/' ∈ scheme then .error (.invalidUrl url)
    else
      let segments := splitPath (dropSlash path)
      if [] ∈ segments then .error (.emptySegment url)
      else .ok ⟨String.ofList scheme, segments.map String.ofList⟩

/-! ## As a JSON value -/

/-- An address as a JSON value is its text. -/
def toJson (a : Address) : Json := .string a.text

/-- Reads an address from a JSON value. -/
def ofJson? : Json → Option Address
  | .string url => (parse url).toOption
  | _ => none

end Address

end Switchboard
