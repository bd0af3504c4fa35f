import DriveMarket.Bytes.Basic

/-
  What an event needs to travel on the bus.

  Key definitions include:
    * `BusEvent`
    * `Subject`
-/

namespace DriveMarket

/- An event has a key, and its type a topic. -/
class BusEvent (ε : Type) where
  key : ε → PublicKey
  topic : String

/- The keys to receive events of; none stands for all. -/
structure Subject where
  keys : List PublicKey
deriving DecidableEq

namespace Subject

/- Every event. -/
def all : Subject :=
  ⟨[]⟩

/- Whether an event is wanted. -/
def covers
    {ε : Type}
    [BusEvent ε]
    (subject : Subject)
    (event : ε) : Bool :=
  subject.keys.isEmpty ||
    subject.keys.contains (BusEvent.key event)

end Subject

end DriveMarket
