/-
  A ring that holds the latest events.

  Events are numbered from zero in the order they are pushed.
  The ring has a fixed number of slots, so that of all events
  pushed only the latest can still be read.  A reader is just
  the number of the next event it wants.

  Key definitions include:
    * `Ring`
    * `Ring.push`
    * `Ring.queue`
    * `Ring.receive`
-/

namespace DriveMarket

/- The least power of two that is not below a number. -/
def powerOfTwoAbove
    (n : Nat) : Nat :=
  if n ≤ 1 then 1 else 1 <<< (Nat.log2 (n - 1) + 1)

/- The slots of a ring, and all events pushed so far. -/
structure Ring (ε : Type) where
  slots : Nat
  events : Array ε
deriving DecidableEq

/-
  What a reader finds: an event if one was wanted, the number
  it continues at, and how many events it lost.
-/
structure Reception (ε : Type) where
  event : Option ε
  position : Nat
  lost : Nat
deriving DecidableEq

namespace Ring

variable {ε : Type}

/- A ring that holds at least `capacity` events. -/
def ofCapacity
    (capacity : Nat) : Ring ε :=
  { slots := powerOfTwoAbove capacity
    events := #[] }

/- The number that the next event will have. -/
def next
    (ring : Ring ε) : Nat :=
  ring.events.size

/- The number of the oldest event that can still be read. -/
def oldest
    (ring : Ring ε) : Nat :=
  ring.next - ring.slots

/- Push one more event. -/
def push
    (ring : Ring ε)
    (event : ε) : Ring ε :=
  { ring with events := ring.events.push event }

/- Where a reader at a position can continue. -/
def resume
    (ring : Ring ε)
    (position : Nat) : Nat :=
  max position ring.oldest

/- The events that a reader at a position can still read. -/
def queue
    (ring : Ring ε)
    (position : Nat) : List ε :=
  (ring.events.extract (ring.resume position) ring.next).toList

/-
  Read on from a position to the first wanted event.  The
  events before it are passed over; if none is wanted, all
  have been passed over.
-/
def receive
    (wanted : ε → Bool)
    (ring : Ring ε)
    (position : Nat) : Reception ε :=
  let start := ring.resume position
  let queue := ring.queue position
  let passed := (queue.takeWhile (!wanted ·)).length
  let event := queue.find? wanted
  { event := event
    position :=
      start + passed + (if event.isSome then 1 else 0)
    lost := start - position }

end Ring

end DriveMarket
