import Switchboard.Entry
import Switchboard.Error
import Switchboard.Json.Printer
/-!
# Responses

A response has a status, perhaps a body, and headers that follow from these and from the request.
Refusals of the store become a status and an object with the report; other refusals have no
fixed wording.
-/

namespace Switchboard

/-- What a response carries. -/
inductive Body where
  /-- Nothing. -/
  | none
  /-- A JSON value. -/
  | json (value : Json)
  /-- Plain text. -/
  | text (s : String)

/-- What a request is answered with. -/
structure Response where
  status : Nat
  body : Body
  /-- The headers, names in lower case. -/
  headers : List (String × String)

namespace Response

/-- The headers that let pages of other origins use the interface. -/
def originHeaders : List (String × String) :=
  [("access-control-allow-origin", "*"),
    ("vary", "origin, access-control-request-method, access-control-request-headers")]

/-- A response without body. -/
def bare (status : Nat) : Response := ⟨status, .none, originHeaders⟩

/-- A response with a JSON value. -/
def ofJson (status : Nat) (value : Json) : Response :=
  ⟨status, .json value, ("content-type", "application/json") :: originHeaders⟩

/-- A response with plain text. -/
def ofText (status : Nat) (s : String) : Response :=
  ⟨status, .text s, ("content-type", "text/plain; charset=utf-8") :: originHeaders⟩

/-- The status for a refusal of the store: the node is missing, the request is at odds with what is
stored, or the request is malformed. -/
def statusOf : StoreError → Nat
  | .notFound _ => 404
  | .notContainer _ | .revisionMismatch .. | .alreadyExists _ => 409
  | _ => 400

/-- The response to a refusal of the store. -/
def ofError (e : StoreError) : Response :=
  ofJson (statusOf e) (.object [("message", .string e.message)])

/-- The response to a successful write. -/
def ofRevision (revision : Nat) : Response :=
  ofJson 200 (.object [("revision", .ofNat revision)])

/-- The response to a method that the path does not know. -/
def notAllowed (methods : String) : Response :=
  ⟨405, .none, ("allow", methods) :: originHeaders⟩

/-- The response to a question about the options of a path. -/
def options : Response :=
  ⟨200, .none, [("access-control-allow-methods", "*"), ("access-control-allow-headers", "*")] ++
    originHeaders⟩

/-- The response with its headers only. -/
def withoutBody (r : Response) : Response := { r with body := .none }

end Response

end Switchboard
