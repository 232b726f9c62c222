import Switchboard.Http.Octets
/-!
# Requests

A request has a method, a path with a query, headers and perhaps a body. Its path leads to the
health check, to the nodes of the tree or to the queries. The path below `/api/status/` and
`/api/query/` may hold anything, slashes and escapes included, but is never empty.
-/

namespace Switchboard

/-- What a request asks for. -/
inductive Method where
  | get
  | head
  | put
  | delete
  | options
  | other
deriving DecidableEq, Repr

/-- The method of a given name. Names are in upper case. -/
def Method.ofName : String → Method
  | "GET" => get
  | "HEAD" => head
  | "PUT" => put
  | "DELETE" => delete
  | "OPTIONS" => options
  | _ => other

/-- A request as it comes in. -/
structure Request where
  method : Method
  /-- The path and, behind a question mark, the query. -/
  target : String
  /-- The media type of the body, if one is given. -/
  contentType : Option String
  /-- The body; empty if there is none. -/
  body : String

/-- Where a path leads. The octets of a tail are still escaped. -/
inductive Route where
  | health
  | status (tail : List UInt8)
  | query (tail : List UInt8)
  | unknown
deriving DecidableEq

namespace Request

/-- The target without what stands behind a number sign. -/
def location (r : Request) : List Char :=
  r.target.toList.takeWhile (· != '#')

/-- The path of the target. -/
def path (r : Request) : String :=
  String.ofList (r.location.takeWhile (· != '?'))

/-- The query of the target, without its question mark; empty if there is none. -/
def query (r : Request) : String :=
  String.ofList ((r.location.dropWhile (· != '?')).drop 1)

/-- The tail of `text` behind `front`, if it is not empty. -/
def tail? (front text : String) : Option (List UInt8) :=
  let octets := Octets.ofText text
  let lead := Octets.ofText front
  if lead.isPrefixOf octets ∧ lead.length < octets.length then some (octets.drop lead.length)
  else none

/-- Where the path leads. -/
def route (r : Request) : Route :=
  let path := r.path
  if path = "/api/health" then .health
  else if path = "/api/status" then .status []
  else if path = "/api/query" then .query []
  else
    match tail? "/api/status/" path, tail? "/api/query/" path with
    | some tail, _ => .status tail
    | none, some tail => .query tail
    | none, none => .unknown

/-- The pairs of a query: octets between ampersands, split at the first equals sign. Empty pairs are
skipped, and a plus sign stands for a space. -/
def pairs (r : Request) : List (String × String) :=
  let readPart (bs : List UInt8) : String :=
    Octets.textWithGaps (Octets.unescape (bs.map fun b => if b = 43 then 32 else b))
  let parts := ((Octets.ofText r.query).splitOn 38).filter (· ≠ [])
  parts.map fun part =>
    (readPart (part.takeWhile (· != 61)), readPart ((part.dropWhile (· != 61)).drop 1))

/-- The value of the query for `revision`. More than one is an error. -/
def revision? (r : Request) : Option (Option String) :=
  match r.pairs.filter fun pair => pair.1 = "revision" with
  | [] => some none
  | [(_, value)] => some (some value)
  | _ => none

end Request

end Switchboard
