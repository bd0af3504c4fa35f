import DriveMarket.Json.Snapshots
import DriveMarket.Json.Transactions

/-
  The records that have a JSON form, under the names that
  documents give them.

  Key definitions include:
    * `JsonForm.normalize`
    * `jsonRecords`
-/

namespace DriveMarket

/- Read a record and write it again, in its usual spelling. -/
def JsonForm.normalize
    {α : Type}
    (form : JsonForm α)
    (value : JsonValue) : Except JsonFault JsonValue :=
  (form.read value).map form.write

/- Every record by name, with its way to be normalized. -/
def jsonRecords :
    List (String × (JsonValue → Except JsonFault JsonValue)) :=
  [("Amount", Amount.form.normalize),
    ("StorageSize", StorageSize.form.normalize),
    ("Deadline", Deadline.form.normalize),
    ("NetworkType", Network.form.normalize),
    ("EntityType", TransactionKind.form.normalize),
    ("BlsPublicKey", BlsPublicKey.form.normalize),
    ("BlsSignature", BlsSignature.form.normalize),
    ("ActiveDataModification", Modification.form.normalize),
    ("DataModificationState",
      ModificationOutcome.form.normalize),
    ("CompletedDataModification",
      CompletedModification.form.normalize),
    ("BcDrive", Drive.form.normalize),
    ("DriveInfo", DriveInfo.form.normalize),
    ("Replicator", Replicator.form.normalize),
    ("VerificationResult", VerificationResult.form.normalize),
    ("VerificationOpinion", Opinion.form.normalize),
    ("ReplicatorOnboarding",
      ReplicatorOnboarding.form.normalize),
    ("PrepareBcDrive", PrepareDrive.form.normalize),
    ("DataModification", DataModification.form.normalize),
    ("DataModificationCancel",
      DataModificationCancel.form.normalize),
    ("DriveClosure", DriveClosure.form.normalize),
    ("EndDriveVerificationV2",
      VerificationRound.form.normalize),
    ("Deploy", Deploy.form.normalize),
    ("Mosaic", Mosaic.form.normalize),
    ("StartExecute", StartExecute.form.normalize),
    ("Cosignature", Cosignature.form.normalize),
    ("AggregateTransaction", Aggregate.form.normalize),
    ("TransactionBody", Body.form.normalize),
    ("EmbeddedTransaction", Embedded.form.normalize),
    ("TransactionHeader", Header.form.normalize),
    ("Transaction", Transaction.form.normalize),
    ("DriveStatus", DriveStatus.form.normalize),
    ("VerificationStatus", VerificationFlags.form.normalize),
    ("ModificationSummary", ModificationSummary.form.normalize),
    ("DriveState", DriveSnapshot.form.normalize)]

end DriveMarket
