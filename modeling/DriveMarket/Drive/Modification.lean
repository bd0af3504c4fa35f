import DriveMarket.Bytes.Basic
import DriveMarket.Quantity

/-
  Modifications of the data on a drive.

  A modification is active until it succeeds or is cancelled,
  and a completed one keeps the record it had while active.

  Key definitions include:
    * `Modification`
    * `ModificationOutcome`
    * `CompletedModification`
-/

namespace DriveMarket

/-
  A requested change that awaits approval.  Its id is the hash
  of the transaction that submitted it.
-/
structure Modification where
  id : Digest
  owner : PublicKey
  downloadData : Digest
  uploadSize : StorageSize
deriving DecidableEq

/- How a modification can end. -/
inductive ModificationOutcome where
  | succeeded
  | cancelled
deriving DecidableEq

namespace ModificationOutcome

/- Every outcome, in the order of their bytes. -/
def all : List ModificationOutcome :=
  [.succeeded, .cancelled]

/- The byte of an outcome. -/
def byte : ModificationOutcome → UInt8
  | .succeeded => 0
  | .cancelled => 1

/- The outcome of a byte, if there is one. -/
def ofByte?
    (b : UInt8) : Option ModificationOutcome :=
  all.find? (·.byte == b)

/- The name of an outcome. -/
def name : ModificationOutcome → String
  | .succeeded => "Succeeded"
  | .cancelled => "Cancelled"

/- The outcome of a name, if there is one. -/
def ofName?
    (text : String) : Option ModificationOutcome :=
  all.find? (·.name == text)

theorem ofByte?_byte
    (outcome : ModificationOutcome) :
    ofByte? outcome.byte = some outcome := by
  cases outcome <;> decide

theorem ofName?_name
    (outcome : ModificationOutcome) :
    ofName? outcome.name = some outcome := by
  cases outcome <;> decide

end ModificationOutcome

/- A modification that has ended. -/
structure CompletedModification where
  modification : Modification
  outcome : ModificationOutcome
deriving DecidableEq

/- The id of a completed modification. -/
def CompletedModification.id
    (completed : CompletedModification) : Digest :=
  completed.modification.id

end DriveMarket
