import DriveMarket.Drive.Basic
import DriveMarket.Transaction.Body

/-
  What the ledger reports about a drive.

  Key definitions include:
    * `DriveEvent`
    * `DriveEvent.name`
    * `DriveEvent.ofTransaction?`
-/

namespace DriveMarket

/- A change that the ledger has accepted for a drive. -/
inductive DriveEvent where
  | replicatorJoined (replicator : PublicKey)
  | modificationSubmitted (modification : Modification)
  | modificationApproved
      (id rootHash : Digest)
      (usedSize metaFilesSize : StorageSize)
  | modificationCancelled (id : Digest)
  | verificationStarted (trigger : Digest)
  | verificationEnded
      (trigger : Digest)
      (failed : List PublicKey)
  | closureRequested
  | closureFinalized
deriving DecidableEq

namespace DriveEvent

/- The name of an event. -/
def name : DriveEvent → String
  | .replicatorJoined .. => "ReplicatorJoined"
  | .modificationSubmitted .. => "ModificationSubmitted"
  | .modificationApproved .. => "ModificationApproved"
  | .modificationCancelled .. => "ModificationCancelled"
  | .verificationStarted .. => "VerificationStarted"
  | .verificationEnded .. => "VerificationEnded"
  | .closureRequested => "ClosureRequested"
  | .closureFinalized => "ClosureFinalized"

/-
  The event that an accepted transaction implies, with the
  drive that it is about.  The hash of a transaction that
  submits a modification becomes the modification's id.  A
  transaction that ends a verification round does not say
  which replicators failed.
-/
def ofTransaction?
    (tx : Transaction)
    (hash : Digest) : Option (PublicKey × DriveEvent) :=
  match tx.body with
  | .operation (.dataModification content) =>
      some (content.drive,
        .modificationSubmitted {
          id := hash
          owner := tx.header.signer
          downloadData := content.downloadData
          uploadSize := content.uploadSize })
  | .operation (.dataModificationCancel content) =>
      some (content.drive,
        .modificationCancelled content.modification)
  | .operation (.driveClosure content) =>
      some (content.drive, .closureRequested)
  | .operation (.endDriveVerification content) =>
      some (content.drive,
        .verificationEnded content.trigger [])
  | _ => none

end DriveEvent

end DriveMarket
