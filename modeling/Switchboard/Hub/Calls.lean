import Switchboard.Hub.Rules
import Switchboard.Shape
/-!
# Calls to a hub

What callers can do with a hub: read and write its store, hold watches, follow conditions, carry
out actions and send requests. Watches, conditions and requests are held under names; a name that
is used again stands for the new one, and what it stood for before is dropped after that.
-/

namespace Switchboard.Hub

/-- Carries out a write to the store. -/
def write (h : Hub) (f : Store → Except StoreError Nat × Store) : Except StoreError Nat × Hub :=
  let (outcome, s) := f h.store
  (outcome, h.withStore s)

/-- What callers hold when they also hold a value under a name. -/
def hold {α : Type} (name : String) (value : α) (held : List (String × α)) : List (String × α) :=
  held.filter (fun entry => entry.1 ≠ name) ++ [(name, value)]

/-- What callers hold when they let go what is under a name. -/
def letGo {α : Type} (name : String) (held : List (String × α)) : List (String × α) :=
  held.filter fun entry => entry.1 ≠ name

/-! ## Watches -/

/-- Registers a watch under a name. -/
def watch (h : Hub) (name pattern : String) : Except StoreError WatchId × Hub :=
  match h.store.watch pattern with
  | .error e => (.error e, h)
  | .ok (id, s) =>
    let s := match h.watches.lookup name with
      | some old => s.drop old
      | none => s
    (.ok id, { h with watches := hold name id h.watches }.withStore s)

/-- Takes what is in the mailbox of a watch. -/
def take (h : Hub) (id : WatchId) : Mail × Hub :=
  let (mail, s) := h.store.take id
  (mail, h.withStore s)

/-- Asks for the next mail of a watch, and gives up at once if there is none. -/
def receive (h : Hub) (id : WatchId) : Mail × Hub :=
  match h.store.poll id with
  | (.empty, s) => (.empty, h.withStore (s.cancel id))
  | (mail, s) => (mail, h.withStore s)

/-- Ends a watch; its receiver is still held. -/
def release (h : Hub) (id : WatchId) : Hub :=
  h.withStore (h.store.release id)

/-- Drops the watch under a name. -/
def dropWatch (h : Hub) (name : String) (id : WatchId) : Hub :=
  { h with watches := letGo name h.watches }.withStore (h.store.drop id)

/-! ## Conditions -/

/-- Follows a condition under a name, and answers its value. -/
def follow (h : Hub) (name : String) (c : Condition) : Except AutomationError Bool × Hub :=
  match ConditionWatch.start h.store c with
  | (.error e, s) => (.error e, h.withStore s)
  | (.ok w, s) =>
    let s := match h.conditions.lookup name with
      | some old => old.close s
      | none => s
    (.ok w.value, { h with conditions := hold name w h.conditions }.withStore s)

/-- The next change of a condition, as far as there is one by now. -/
def changed (h : Hub) (name : String) (w : ConditionWatch) : Change × Hub :=
  let (change, w, s) := w.next h.store
  (change, { h with conditions := hold name w h.conditions }.withStore s)

/-- Follows a condition no longer. -/
def dropCondition (h : Hub) (name : String) (w : ConditionWatch) : Hub :=
  { h with conditions := letGo name h.conditions }.withStore (w.close h.store)

/-! ## Actions and requests -/

/-- Carries out an action; a delay lets time pass. -/
def act (h : Hub) (action : Action) : Except StoreError Unit × Hub :=
  match action with
  | .delay duration => (.ok (), if duration.ticks = 0 then h else h.advance duration.ticks)
  | action =>
    let (outcome, h) := h.write action.run
    (outcome.map fun _ => (), h)

/-- Starts a request under a name. -/
def startRequest (h : Hub) (name : String) (r : Request) : Hub :=
  let (id, h) := h.spawn (.request (.arrived r))
  { h with requests := hold name id h.requests }

/-- The response to a request, if there is one by now; it is handed out once. -/
def response? (h : Hub) (name : String) (id : TaskId) : Option (Response × Hub) :=
  match h.tasks.lookup id with
  | some (.request (.answered r)) =>
    some (r, { h with
      requests := letGo name h.requests
      tasks := h.tasks.filter fun entry => entry.1 ≠ id })
  | _ => none

/-- Cancels a request. -/
def dropRequest (h : Hub) (name : String) (id : TaskId) : Hub :=
  let cancel : Task → Task
    | .request t => .request t.cancel
    | t => t
  ({ h with requests := letGo name h.requests }.updateTask id cancel).enqueue [id]

/-! ## The whole tree -/

mutual
/-- Every node at and below an address, depth first, children in the order of their names. -/
def nodesAt (here : Address) : Node → List (Address × Node)
  | .leaf revision held => [(here, .leaf revision held)]
  | .container revision children =>
    (here, .container revision children) :: nodesBelow here children

/-- Every node at and below the children of an address. -/
def nodesBelow (here : Address) : List (String × Node) → List (Address × Node)
  | [] => []
  | (name, child) :: rest => nodesAt (here.child name) child ++ nodesBelow here rest
end

/-- Every node of the tree with its address. A store whose scheme cannot be read has none that
could be asked for. -/
def snapshot (h : Hub) : Except (Address × StoreError) (List (Address × Node)) :=
  let root := h.store.rootAddress
  match h.store.get root.text with
  | .error e => .error (root, e)
  | .ok _ => .ok (nodesAt root h.store.tree.root)

end Switchboard.Hub
