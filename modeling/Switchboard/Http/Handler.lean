import Switchboard.Http.Request
import Switchboard.Http.Response
import Switchboard.Http.MediaType
import Switchboard.Store
/-!
# Handling requests

The tree is read and written at `/api/status`, and queries are evaluated at `/api/query`; what
stands behind these in the path is the path of the address. A request is checked piece by piece:
its path, its query, its body. Then it is answered at once, or it waits.

A read with a revision in its query waits until the node has another revision, and one with
`must_not_exist` until there is such a node (`LongPoll`). It watches the node, and each mail is
looked at. A node that is missing ends the wait for another revision. When the time is over the
request is answered like a plain read.
-/

namespace Switchboard

/-- A read that waits. -/
structure LongPoll where
  /-- The address of the node. -/
  url : String
  /-- The revision that is known to the reader, or none if the node is to appear. -/
  since : Option Nat
  /-- The watch of the node. -/
  watch : WatchId
  /-- When the wait is over. -/
  deadline : Nat
  /-- The response is sent without its body. -/
  headOnly : Bool

/-- What has become of a request. -/
inductive Handling where
  | answered (r : Response)
  | waiting (p : LongPoll)

/-- The response to a read. -/
def Response.ofRead : Except StoreError Entry → Response
  | .ok entry => .ofJson 200 entry.toJson
  | .error e => .ofError e

namespace LongPoll

/-- Drops the body of a response where only its headers are wanted. -/
def trim (headOnly : Bool) (r : Response) : Response :=
  if headOnly then r.withoutBody else r

/-- What a mail answers, if it ends the wait. -/
def answer? (p : LongPoll) (found : Matches) : Option (Except StoreError Entry) :=
  match found.head?, p.since with
  | some (_, entry), none => some (.ok entry)
  | some (_, entry), some since => if entry.revision ≠ since then some (.ok entry) else none
  | none, some _ => some (.error (.notFound p.url))
  | none, none => none

/-- Ends the wait with a response. -/
def finish (p : LongPoll) (s : Store) (r : Except StoreError Entry) : Handling × Store :=
  (.answered (trim p.headOnly (.ofRead r)), s.drop p.watch)

/-- Looks into the mailbox, and at the clock if there is no mail that ends the wait. A mail that
does not end it is followed by a second look, which finds none. -/
def poll (p : LongPoll) (clock : Nat) (s : Store) : Nat → Handling × Store
  | 0 => (.waiting p, s)
  | looks + 1 =>
    match s.poll p.watch with
    | (.ready found, s) =>
      match p.answer? found with
      | some r => p.finish s r
      | none => p.poll clock s looks
    | (.released, s) => p.finish s (s.get p.url)
    | (.empty, s) => if p.deadline ≤ clock then p.finish s (s.get p.url) else (.waiting p, s)

/-- Starts to wait for a node, and looks for the first time. -/
def start (s : Store) (clock timeout : Nat) (headOnly : Bool) (url : String) (since : Option Nat) :
    Handling × Store :=
  match s.parseConcrete url with
  | .error e => (.answered (trim headOnly (.ofError e)), s)
  | .ok _ =>
    match s.watch url with
    | .error e => (.answered (trim headOnly (.ofError e)), s)
    | .ok (watch, s) => (LongPoll.mk url since watch (clock + timeout) headOnly).poll clock s 2

end LongPoll

namespace Request

/-- The precondition or known revision that the query names. -/
def precondition (text : Option String) : Except StoreError (Option Precondition) :=
  match text with
  | none => .ok none
  | some text => (Precondition.parse text).map some

/-- Reads a node, at once or after a wait. -/
def handleRead (s : Store) (clock timeout : Nat) (headOnly : Bool) (url : String)
    (revision : Option String) : Handling × Store :=
  match precondition revision with
  | .error e => (.answered (LongPoll.trim headOnly (.ofError e)), s)
  | .ok none | .ok (some .unchecked) =>
    (.answered (LongPoll.trim headOnly (.ofRead (s.get url))), s)
  | .ok (some .mustNotExist) => LongPoll.start s clock timeout headOnly url none
  | .ok (some (.exact since)) => LongPoll.start s clock timeout headOnly url (some since.toNat)

/-- The response to a write, with the store after it. -/
def ofWrite : Except StoreError Nat × Store → Response × Store
  | (.ok revision, s) => (.ofRevision revision, s)
  | (.error e, s) => (.ofError e, s)

/-- Writes the body to a node. The body has to be JSON, which may be followed by anything. -/
def handleWrite (r : Request) (s : Store) (url : String) (revision : Option String) :
    Response × Store :=
  if (r.contentType.map MediaType.isJson).getD false then
    match Json.parseFront r.body with
    | .error _ => (.bare 400, s)
    | .ok value =>
      match precondition revision with
      | .error e => (.ofError e, s)
      | .ok expected => ofWrite (s.set url value (expected.getD .unchecked))
  else (.bare 415, s)

/-- Removes a node. -/
def handleRemove (s : Store) (url : String) (revision : Option String) : Response × Store :=
  match precondition revision with
  | .error e => (.ofError e, s)
  | .ok expected => ofWrite (s.remove url (expected.getD .unchecked))

/-- Evaluates a query. -/
def handleQuery (s : Store) (headOnly : Bool) (url : String) : Response :=
  LongPoll.trim headOnly <|
    match s.expand url with
    | .ok found => .ofJson 200 found.toJson
    | .error e => .ofError e

/-- The address for the tail of a path. -/
def addressOf (s : Store) (tail : String) : String :=
  s.scheme ++ "://" ++ tail

/-- A request that is answered at once. -/
def now : Response × Store → Handling × Store
  | (r, s) => (.answered r, s)

/-- Handles a request for a node. -/
def handleNode (r : Request) (s : Store) (clock timeout : Nat) (tail : List UInt8) :
    Handling × Store :=
  match r.method with
  | .options | .other => now (.notAllowed "GET,HEAD,PUT,DELETE", s)
  | .get | .head | .put | .delete =>
    match Octets.text? (Octets.unescape tail), r.revision? with
    | some path, some revision =>
      let url := addressOf s path
      match r.method with
      | .put => now (r.handleWrite s url revision)
      | .delete => now (handleRemove s url revision)
      | _ => handleRead s clock timeout (r.method = .head) url revision
    | _, _ => now (.bare 400, s)

/-- Handles a request for a query. -/
def handlePattern (r : Request) (s : Store) (tail : List UInt8) : Response :=
  if r.method = .get ∨ r.method = .head then
    match Octets.text? (Octets.unescape tail) with
    | some path => handleQuery s (r.method = .head) (addressOf s path)
    | none => .bare 400
  else .notAllowed "GET,HEAD"

/-- Handles a request. -/
def handle (r : Request) (s : Store) (clock timeout : Nat) : Handling × Store :=
  if r.method = .options then now (.options, s)
  else
    match r.route with
    | .unknown => now (.bare 404, s)
    | .health =>
      if r.method = .get ∨ r.method = .head then
        now (LongPoll.trim (r.method = .head) (.ofText 200 "OK"), s)
      else now (.notAllowed "GET,HEAD", s)
    | .query tail => now (r.handlePattern s tail, s)
    | .status tail => r.handleNode s clock timeout tail

end Request

end Switchboard
