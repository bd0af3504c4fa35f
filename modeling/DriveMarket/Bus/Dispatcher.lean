import DriveMarket.Bus.Basic
import DriveMarket.Bus.Handlers

/-
  Dispatchers: receivers that call handlers.

  A switchboard is a bus with handlers.  A dispatcher receives
  every event of the bus and dispatches it, until the bus has
  been closed and nothing is queued.  It works in turns, which
  can end at any time; when it has turns, and how long they
  are, is not up to it.

  Key definitions include:
    * `Switchboard`
    * `Switchboard.openDispatcher`
    * `Switchboard.forward`
-/

namespace DriveMarket

variable {ε : Type}

/- A bus, and the handlers that its dispatchers call. -/
structure Switchboard (ε : Type) where
  bus : Bus ε
  handlers : Handlers ε

/-
  How a turn ends: with the turn used up, with nothing left to
  receive, or with nothing ever to receive again.
-/
inductive TurnEnd where
  | gaveWay
  | waiting
  | finished
deriving DecidableEq

/- The calls of a turn, as ids with the event, and its end. -/
structure Turn (ε : Type) where
  calls : List (UInt64 × ε)
  ending : TurnEnd

namespace Switchboard

/- A bus without handlers. -/
def ofBus
    (bus : Bus ε) : Switchboard ε :=
  { bus := bus
    handlers := .empty }

/- Open a dispatcher; its number is that of its receiver. -/
def openDispatcher
    (board : Switchboard ε) : Switchboard ε :=
  { board with bus := board.bus.subscribe .all }

variable [BusEvent ε]

/- Dispatch an event: the calls made. -/
def dispatch
    (board : Switchboard ε)
    (event : ε) : List (UInt64 × ε) × Switchboard ε :=
  let (told, handlers) := board.handlers.dispatch event
  (told.calls.map (·, event),
    { board with handlers := handlers })

/-
  A turn of a dispatcher: it dispatches what it receives, up
  to a number of events.  With its work done it is dropped.
-/
def forward
    (number : Nat) :
    (limit : Nat) →
    (board : Switchboard ε) →
    Turn ε × Switchboard ε
  | 0, board => (⟨[], .gaveWay⟩, board)
  | limit + 1, board =>
      match board.bus.tryReceive number with
      | (.ok (some event), bus) =>
          let (calls, board) :=
            { board with bus := bus }.dispatch event
          let (turn, board) := forward number limit board
          (⟨calls ++ turn.calls, turn.ending⟩, board)
      | (.ok none, bus) =>
          (⟨[], .waiting⟩, { board with bus := bus })
      | (.error _, bus) =>
          (⟨[], .finished⟩,
            { board with bus := bus.drop number })

end Switchboard

end DriveMarket
