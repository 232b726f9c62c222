/-!
# What a store refuses

Every way in which a read or a write can fail. A failed write leaves the store as it was, so an
error is only a report. Addresses in an error are text: either as the caller spelled them or as
`Address.text` writes them, depending on how far the request got.
-/

namespace Switchboard

/-- What is wrong with a JSON text or with the shape of a value. -/
inductive JsonFault where
  /-- The text ended too early. -/
  | eof
  /-- The text is no JSON. -/
  | grammar
  /-- The value is JSON, but not of the expected shape. -/
  | shape
deriving DecidableEq, Repr

/-- What a value holds that a tree cannot store. -/
inductive Offence where
  /-- A key that no concrete address can name. -/
  | childName (name : String)
  /-- A list element that is a list or an object. -/
  | listElement (index : Nat)
deriving DecidableEq, Repr

/-- The offence in words. -/
def Offence.message : Offence → String
  | .childName name => s!"child name '{name}' is not addressable"
  | .listElement index => s!"list element {index} is not a scalar"

/-- Why a store refused a request. -/
inductive StoreError where
  /-- The text has no scheme. -/
  | invalidUrl (url : String)
  /-- A segment of the path is empty. -/
  | emptySegment (url : String)
  /-- The address belongs to another store. -/
  | schemeMismatch (url expected : String)
  /-- A pattern was given where one node has to be named. -/
  | wildcardNotAllowed (url : String)
  /-- There is no such node. -/
  | notFound (url : String)
  /-- A scalar or a list sits where a container is needed. -/
  | notContainer (url : String)
  /-- The node was written since it was read. -/
  | revisionMismatch (url : String) (expected actual : Nat)
  /-- The node to be created is there already. -/
  | alreadyExists (url : String)
  /-- The value does not fit into a tree. -/
  | unsupportedValue (url : String) (offence : Offence)
  /-- The text names no precondition. -/
  | invalidRevision (text : String)
  /-- A JSON text or a typed value could not be read. -/
  | json (fault : JsonFault)
deriving DecidableEq, Repr

namespace StoreError

/-- The report as it is shown; the wording of a JSON fault is left open. -/
def message : StoreError → String
  | invalidUrl url => s!"invalid url '{url}': expected scheme://path"
  | emptySegment url => s!"invalid url '{url}': empty path segment"
  | schemeMismatch url expected => s!"invalid url '{url}': scheme must be '{expected}'"
  | wildcardNotAllowed url => s!"wildcard not allowed in '{url}'"
  | notFound url => s!"node not found: {url}"
  | notContainer url => s!"node is not a container: {url}"
  | revisionMismatch url expected actual =>
    s!"revision mismatch at {url}: expected {expected}, found {actual}"
  | alreadyExists url => s!"node already exists: {url}"
  | unsupportedValue url offence => s!"unsupported value at {url}: {offence.message}"
  | invalidRevision text =>
    s!"invalid revision '{text}': expected an integer, 'unchecked' or 'must_not_exist'"
  | json _ => "json error"

/-- The node is not there. -/
def isNotFound : StoreError → Bool
  | notFound _ => true
  | _ => false

/-- The write lost against another one. -/
def isConflict : StoreError → Bool
  | revisionMismatch .. | alreadyExists _ => true
  | _ => false

/-- The address itself is at fault. -/
def isInvalidUrl : StoreError → Bool
  | invalidUrl _ | emptySegment _ | schemeMismatch .. | wildcardNotAllowed _ => true
  | _ => false

end StoreError

end Switchboard
