import DriveMarket.Json.Drives
import DriveMarket.Lifecycle.Snapshot

/-
  The JSON forms of drive snapshots.

  Key definitions include:
    * `ModificationSummary.form`
    * `DriveSnapshot.form`
-/

namespace DriveMarket

/- Statuses, by name. -/
def DriveStatus.form : JsonForm DriveStatus :=
  .named DriveStatus.name DriveStatus.ofName?

/- Whether a round is running, and whether one could start. -/
def VerificationFlags.form : JsonForm VerificationFlags :=
  RecordFields.form
    (VerificationFlags.mk
      <$> field "active" .bool VerificationFlags.active
      <*> field "available" .bool VerificationFlags.available)

/- Summaries of modifications. -/
def ModificationSummary.form : JsonForm ModificationSummary :=
  RecordFields.form
    (ModificationSummary.mk
      <$> field "id" Digest.form ModificationSummary.id
      <*> field "upload_size" StorageSize.form
        ModificationSummary.uploadSize
      <*> optionalField "state" ModificationOutcome.form
        ModificationSummary.outcome)

/- Snapshots, as subscribers store them. -/
def DriveSnapshot.form : JsonForm DriveSnapshot :=
  RecordFields.form
    (DriveSnapshot.mk
      <$> field "drive_key" Digest.form DriveSnapshot.drive
      <*> field "sequence" .uint64 DriveSnapshot.sequence
      <*> field "status" DriveStatus.form DriveSnapshot.status
      <*> field "verification" VerificationFlags.form
        DriveSnapshot.verification
      <*> field "root_hash" Digest.form DriveSnapshot.rootHash
      <*> field "used_size" StorageSize.form
        DriveSnapshot.usedSize
      <*> field "meta_files_size" StorageSize.form
        DriveSnapshot.metaFilesSize
      <*> field "replicators" (.list Digest.form)
        DriveSnapshot.replicators
      <*> field "active_modifications"
        (.list ModificationSummary.form) DriveSnapshot.active
      <*> field "completed_modifications"
        (.list ModificationSummary.form)
        DriveSnapshot.completed)

end DriveMarket
