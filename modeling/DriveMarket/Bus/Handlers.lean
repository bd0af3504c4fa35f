import DriveMarket.Bus.Event
import DriveMarket.Ordered.Map

/-
  Handlers: callers waiting for something to happen to a key.

  A handler is called with each event of its key, in the order
  of registration, until a call finishes it.  Whether a call
  finishes a handler may depend on all its calls so far.  The
  handlers of a key are kept together, and a key is dropped
  with the last of its handlers.

  Key definitions include:
    * `Handler`
    * `Handler.call`
    * `Handlers`
    * `Handlers.register`
    * `Handlers.remove`
    * `Handlers.dispatch`
    * `Handlers.keys`
-/

namespace DriveMarket

variable {ε : Type}

------------------------------------------------------------
-- Single Handlers
------------------------------------------------------------

/-
  A registered handler: the events it has been called with,
  latest first, and whether such calls have finished it.
-/
structure Handler (ε : Type) where
  id : UInt64
  finished : List ε → Bool
  calls : List ε

namespace Handler

/- How the id of a handler is shown. -/
def describeId
    (id : UInt64) : String :=
  s!"HandlerId({id})"

/- Call a handler: whether that finished it, and its state. -/
def call
    (event : ε)
    (handler : Handler ε) : Bool × Handler ε :=
  let calls := event :: handler.calls
  (handler.finished calls, { handler with calls := calls })

/-
  Call handlers, one after the other: the ids called, and the
  handlers that are not finished.
-/
def callEach
    (event : ε) :
    List (Handler ε) →
    List UInt64 × List (Handler ε)
  | [] => ([], [])
  | handler :: rest =>
      let (done, handler) := handler.call event
      let (ids, left) := callEach event rest
      (handler.id :: ids,
        if done then left else handler :: left)

end Handler

------------------------------------------------------------
-- Handlers of All Keys
------------------------------------------------------------

/-
  The handlers of each key, in the order of registration, and
  the id for the next one.  Ids have 64 bits.
-/
structure Handlers (ε : Type) where
  nextId : UInt64
  lists : OrderedMap PublicKey (List (Handler ε))

/-
  What is told of an event that was dispatched: how many
  handlers there were for it, and the ids called, in order.
-/
structure Dispatched where
  invoked : Nat
  calls : List UInt64
deriving DecidableEq

namespace Handlers

/- No handlers. -/
def empty : Handlers ε :=
  { nextId := 0
    lists := .empty }

/- Register a handler, which is told its id. -/
def register
    (handlers : Handlers ε)
    (key : PublicKey)
    (finished : List ε → Bool) : UInt64 × Handlers ε :=
  let handler := {
    id := handlers.nextId
    finished := finished
    calls := [] }
  let list := (handlers.lists.get? key).getD []
  (handler.id,
    { nextId := handlers.nextId + 1
      lists := handlers.lists.insert key (list ++ [handler]) })

/- Put what is left of a key back; nothing is left out. -/
def putBack
    (handlers : Handlers ε)
    (key : PublicKey)
    (left : List (Handler ε)) : Handlers ε :=
  { handlers with
    lists :=
      if left.isEmpty then
        handlers.lists.erase key
      else
        handlers.lists.insert key left }

/- Remove a handler of a key: whether there was one. -/
def remove
    (handlers : Handlers ε)
    (key : PublicKey)
    (id : UInt64) : Bool × Handlers ε :=
  match handlers.lists.get? key with
  | none => (false, handlers)
  | some list =>
      let left := list.filter (·.id != id)
      (left.length != list.length,
        handlers.putBack key left)

/- How many handlers a key has. -/
def count
    (handlers : Handlers ε)
    (key : PublicKey) : Nat :=
  (handlers.lists.get? key).elim 0 List.length

/- The keys that have handlers. -/
def keys
    (handlers : Handlers ε) : List PublicKey :=
  handlers.lists.keys

/- Call all handlers of an event's key. -/
def dispatch
    [BusEvent ε]
    (handlers : Handlers ε)
    (event : ε) : Dispatched × Handlers ε :=
  let key := BusEvent.key event
  match handlers.lists.get? key with
  | none => (⟨0, []⟩, handlers)
  | some list =>
      let (calls, left) := Handler.callEach event list
      (⟨list.length, calls⟩, handlers.putBack key left)

end Handlers

end DriveMarket
