import DriveMarket.Bus.Event
import DriveMarket.Bus.Ring
import DriveMarket.Refusal

/-
  The event bus.

  All keys share one ring, so events of one key keep their
  order.  A receiver gets the events it wants that are
  published after it was opened.  One that falls behind the
  ring loses the oldest events and counts them when it next
  receives.  Closing the bus leaves what is queued.

  Key definitions include:
    * `Receiver`
    * `Bus`
    * `Bus.ofCapacity?`
    * `Bus.publish`
    * `Bus.subscribe`
    * `Bus.tryReceive`
    * `Bus.drain`
-/

namespace DriveMarket

------------------------------------------------------------
-- Receivers
------------------------------------------------------------

/-
  What a receiver wants, the number of the event it continues
  at, and its 64-bit count of the events it has missed.
-/
structure Receiver where
  subject : Subject
  position : Nat
  missed : UInt64
deriving DecidableEq

/- Why a receiver gets nothing now and never again. -/
inductive ReceiveError where
  | closed
  | dropped
deriving DecidableEq

/- The wording of each cause. -/
def ReceiveError.message : ReceiveError → String
  | .closed => "Event bus closed"
  | .dropped => "Subscription dropped"

/- The code of each cause. -/
def ReceiveError.code : ReceiveError → String
  | .closed => "Closed"
  | .dropped => "Dropped"

instance : Refusal ReceiveError :=
  ⟨ReceiveError.code, ReceiveError.message⟩

/- How many events a receiver has lost without knowing it. -/
def Receiver.lag
    {ε : Type}
    (ring : Ring ε)
    (receiver : Receiver) : Nat :=
  ring.resume receiver.position - receiver.position

/- The next event that a receiver wants, and its new state. -/
def Receiver.receive
    {ε : Type}
    [BusEvent ε]
    (ring : Ring ε)
    (receiver : Receiver) : Option ε × Receiver :=
  let reception :=
    ring.receive receiver.subject.covers receiver.position
  (reception.event,
    { receiver with
      position := reception.position
      missed := receiver.missed + .ofNat reception.lost })

------------------------------------------------------------
-- The Bus
------------------------------------------------------------

/-
  A bus with its receivers, numbered in the order they were
  opened; a dropped one keeps its number.
-/
structure Bus (ε : Type) where
  capacity : Nat
  ring : Ring ε
  receivers : List (Option Receiver)
  isOpen : Bool
deriving DecidableEq

namespace Bus

variable {ε : Type}

/- The capacity of a bus that is not asked for any. -/
def defaultCapacity : Nat :=
  1000

/- More events than this cannot be addressed. -/
def maxCapacity : Nat :=
  0x1000000000000

/-
  An open bus without receivers.  It needs some capacity, and
  no more than can be addressed.
-/
def ofCapacity?
    (capacity : Nat) : Option (Bus ε) :=
  if capacity = 0 ∨ maxCapacity < capacity then
    none
  else
    some {
      capacity := capacity
      ring := .ofCapacity capacity
      receivers := []
      isOpen := true }

/- The receivers that have not been dropped. -/
def receiverCount
    (bus : Bus ε) : Nat :=
  bus.receivers.countP (·.isSome)

/- Publish an event. -/
def publish
    (bus : Bus ε)
    (event : ε) : Bus ε :=
  { bus with ring := bus.ring.push event }

/- The number of events published so far. -/
def published
    (bus : Bus ε) : Nat :=
  bus.ring.next

/- Open a receiver; its number is that of receivers before. -/
def subscribe
    (bus : Bus ε)
    (subject : Subject) : Bus ε :=
  { bus with
    receivers :=
      bus.receivers ++ [some {
        subject := subject
        position := bus.ring.next
        missed := 0 }] }

/- The receiver of a number, unless it was dropped. -/
def receiver?
    (bus : Bus ε)
    (number : Nat) : Option Receiver :=
  bus.receivers[number]?.join

/- Give a receiver a new state. -/
def setReceiver
    (bus : Bus ε)
    (number : Nat)
    (receiver : Receiver) : Bus ε :=
  { bus with
    receivers := bus.receivers.set number (some receiver) }

/- Drop a receiver. -/
def drop
    (bus : Bus ε)
    (number : Nat) : Bus ε :=
  { bus with receivers := bus.receivers.set number none }

/- Close the bus. -/
def close
    (bus : Bus ε) : Bus ε :=
  { bus with isOpen := false }

/-
  What a receiver gets now: its next event, or nothing yet,
  or nothing ever again once a closed bus has nothing queued.
-/
def tryReceive
    [BusEvent ε]
    (bus : Bus ε)
    (number : Nat) :
    Except ReceiveError (Option ε) × Bus ε :=
  match bus.receiver? number with
  | none => (.error .dropped, bus)
  | some receiver =>
      let (event, receiver) := receiver.receive bus.ring
      let bus := bus.setReceiver number receiver
      if event.isNone ∧ !bus.isOpen then
        (.error .closed, bus)
      else
        (.ok event, bus)

/- Everything that a receiver can get now. -/
def drain
    [BusEvent ε]
    (bus : Bus ε)
    (number : Nat) : List ε × Bus ε :=
  match bus.receiver? number with
  | none => ([], bus)
  | some receiver =>
      let queue := bus.ring.queue receiver.position
      (queue.filter receiver.subject.covers,
        bus.setReceiver number {
          receiver with
          position := bus.ring.next
          missed :=
            receiver.missed + .ofNat (receiver.lag bus.ring) })

end Bus

end DriveMarket
