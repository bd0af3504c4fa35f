import DriveMarket.Quantity

/-
  Transaction deadlines.

  A deadline counts milliseconds from the network's own epoch,
  the first of April 2016.  Conversions from and to the Unix
  epoch stop at the ends of the 64-bit range.

  Key definitions include:
    * `Deadline`
    * `Deadline.ofUnix`
    * `Deadline.toUnix`
    * `Deadline.after`
-/

namespace DriveMarket

/- Milliseconds since the network epoch. -/
structure Deadline where
  value : UInt64
deriving DecidableEq, Inhabited

namespace Deadline

/- The network epoch in milliseconds since the Unix epoch. -/
def epoch : UInt64 :=
  1459468800000

/- The deadline at a Unix time; times before the epoch give zero. -/
def ofUnix
    (milliseconds : UInt64) : Deadline :=
  ⟨Word64.saturatingDiff milliseconds epoch⟩

/- The Unix time of a deadline. -/
def toUnix
    (deadline : Deadline) : UInt64 :=
  Word64.saturatingSum deadline.value epoch

/-
  The deadline a number of seconds after a moment, which is
  given in Unix milliseconds.  Neither the window nor the sum
  grows past the largest 64-bit number.
-/
def after
    (now seconds : UInt64) : Deadline :=
  ofUnix
    (Word64.saturatingSum now
      (Word64.clamp (1000 * seconds.toNat)))

end Deadline

end DriveMarket
