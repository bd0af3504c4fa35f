import DriveMarket.Drive.Basic
import DriveMarket.Json.Quantities
import DriveMarket.Replicator
import DriveMarket.Verification.Opinion

/-
  The JSON forms of drives, replicators and opinions.

  A drive is read only if its modifications are consistent.

  Key definitions include:
    * `Modification.form`
    * `CompletedModification.form`
    * `Drive.form`
    * `Replicator.form`
    * `Opinion.form`
-/

namespace DriveMarket

------------------------------------------------------------
-- Drives
------------------------------------------------------------

/- Modifications. -/
def Modification.form : JsonForm Modification :=
  RecordFields.form
    (Modification.mk
      <$> field "id" Digest.form Modification.id
      <*> field "owner" Digest.form Modification.owner
      <*> field "download_data_cdi" Digest.form
        Modification.downloadData
      <*> field "upload_size" StorageSize.form
        Modification.uploadSize)

/- How modifications ended, by name. -/
def ModificationOutcome.form : JsonForm ModificationOutcome :=
  .named ModificationOutcome.name ModificationOutcome.ofName?

/- Modifications that have ended. -/
def CompletedModification.form :
    JsonForm CompletedModification :=
  RecordFields.form
    (CompletedModification.mk
      <$> field "modification" Modification.form
        CompletedModification.modification
      <*> field "state" ModificationOutcome.form
        CompletedModification.outcome)

/- The fields of a drive. -/
def Drive.fields : RecordFields Drive Drive :=
  Drive.mk
    <$> field "drive_key" Digest.form Drive.key
    <*> field "owner" Digest.form Drive.owner
    <*> field "root_hash" Digest.form Drive.rootHash
    <*> field "drive_size" StorageSize.form Drive.size
    <*> field "used_size" StorageSize.form Drive.usedSize
    <*> field "meta_files_size" StorageSize.form
      Drive.metaFilesSize
    <*> field "replicator_count" .uint16 Drive.replicatorCount
    <*> field "active_data_modifications"
      (.list Modification.form) Drive.active
    <*> field "completed_data_modifications"
      (.list CompletedModification.form) Drive.completed

/- Drives whose modifications are consistent. -/
def Drive.form : JsonForm Drive :=
  Drive.fields.form.checked fun drive =>
    drive.withModifications drive.active drive.completed

------------------------------------------------------------
-- Replicators
------------------------------------------------------------

/- What replicators keep about drives. -/
def DriveInfo.form : JsonForm DriveInfo :=
  RecordFields.form
    (DriveInfo.mk
      <$> field "last_approved_data_modification_id"
        Digest.form DriveInfo.lastApprovedId
      <*> field "data_modification_id_is_valid" .bool
        DriveInfo.lastApprovedValid
      <*> field "initial_download_work" .uint64
        DriveInfo.initialDownloadWork
      <*> field "index" .uint32 DriveInfo.index)

/-
  The drives of a replicator, as pairs of a key and what is
  kept about the drive.  Of pairs with one key the last counts.
-/
def servedDrivesForm :
    JsonForm (OrderedMap PublicKey DriveInfo) :=
  (JsonForm.list (.pair Digest.form DriveInfo.form)).convert
    OrderedMap.ofList OrderedMap.entries

/- Replicators. -/
def Replicator.form : JsonForm Replicator :=
  RecordFields.form
    (Replicator.mk
      <$> field "key" Digest.form Replicator.key
      <*> field "version" .int32 Replicator.version
      <*> field "capacity" Amount.form Replicator.capacity
      <*> optionalField "bls_key" BlsPublicKey.form
        Replicator.blsKey
      <*> field "drives" servedDrivesForm Replicator.drives)

------------------------------------------------------------
-- Opinions
------------------------------------------------------------

/- Results of single provers. -/
def VerificationResult.form : JsonForm VerificationResult :=
  RecordFields.form
    (VerificationResult.mk
      <$> field "prover" .uint16 VerificationResult.prover
      <*> field "result" .bool VerificationResult.passed)

/- Opinions, however many results they have. -/
def Opinion.form : JsonForm Opinion :=
  RecordFields.form
    (Opinion.mk
      <$> field "verifier" .uint16 Opinion.verifier
      <*> field "bls_signature" BlsSignature.form
        Opinion.signature
      <*> field "results" (.list VerificationResult.form)
        Opinion.results)

end DriveMarket
