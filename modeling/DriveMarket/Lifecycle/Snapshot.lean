import DriveMarket.Bus.Event
import DriveMarket.Drive.Basic
import DriveMarket.Lifecycle.Status

/-
  Snapshots of a drive, as subscribers receive them.

  Key definitions include:
    * `ModificationSummary`
    * `DriveSnapshot`
-/

namespace DriveMarket

/- A modification in a snapshot; active ones have no outcome. -/
structure ModificationSummary where
  id : Digest
  uploadSize : StorageSize
  outcome : Option ModificationOutcome
deriving DecidableEq

/- The summary of an active modification. -/
def Modification.summary
    (modification : Modification) : ModificationSummary :=
  { id := modification.id
    uploadSize := modification.uploadSize
    outcome := none }

/- The summary of a completed modification. -/
def CompletedModification.summary
    (completed : CompletedModification) :
    ModificationSummary :=
  { id := completed.id
    uploadSize := completed.modification.uploadSize
    outcome := some completed.outcome }

/-
  A drive after some number of accepted events, which is the
  snapshot's sequence number.
-/
structure DriveSnapshot where
  drive : PublicKey
  sequence : UInt64
  status : DriveStatus
  verification : VerificationFlags
  rootHash : Digest
  usedSize : StorageSize
  metaFilesSize : StorageSize
  replicators : List PublicKey
  active : List ModificationSummary
  completed : List ModificationSummary
deriving DecidableEq

/- Snapshots travel under the key of their drive. -/
instance : BusEvent DriveSnapshot where
  key := (·.drive)
  topic := "drive-state"

end DriveMarket
