import DriveMarket.Json.Drives
import DriveMarket.Transaction.Body

/-
  The JSON forms of transactions.

  A body is an object whose only member has the name of the
  body's kind.  A verification round is read only if its
  opinions line up with its provers.

  Key definitions include:
    * `VerificationRound.form`
    * `Body.form`
    * `Embedded.form`
    * `Aggregate.form`
    * `Header.form`
    * `Transaction.form`
-/

namespace DriveMarket

------------------------------------------------------------
-- Operations
------------------------------------------------------------

/- Onboardings of replicators. -/
def ReplicatorOnboarding.form :
    JsonForm ReplicatorOnboarding :=
  RecordFields.form
    (ReplicatorOnboarding.mk
      <$> field "capacity" Amount.form
        ReplicatorOnboarding.capacity
      <*> field "bls_public_key" BlsPublicKey.form
        ReplicatorOnboarding.blsKey)

/- Preparations of drives. -/
def PrepareDrive.form : JsonForm PrepareDrive :=
  RecordFields.form
    (PrepareDrive.mk
      <$> field "drive_size" StorageSize.form
        PrepareDrive.size
      <*> field "verification_fee_amount" Amount.form
        PrepareDrive.verificationFee
      <*> field "replicator_count" .uint16
        PrepareDrive.replicatorCount)

/- Submissions of modifications. -/
def DataModification.form : JsonForm DataModification :=
  RecordFields.form
    (DataModification.mk
      <$> field "drive_key" Digest.form DataModification.drive
      <*> field "download_data_cdi" Digest.form
        DataModification.downloadData
      <*> field "upload_size" StorageSize.form
        DataModification.uploadSize
      <*> field "feedback_fee_amount" Amount.form
        DataModification.feedbackFee)

/- Withdrawals of modifications. -/
def DataModificationCancel.form :
    JsonForm DataModificationCancel :=
  RecordFields.form
    (DataModificationCancel.mk
      <$> field "drive_key" Digest.form
        DataModificationCancel.drive
      <*> field "data_modification_id" Digest.form
        DataModificationCancel.modification)

/- Closures of drives. -/
def DriveClosure.form : JsonForm DriveClosure :=
  RecordFields.form
    (DriveClosure.mk
      <$> field "drive_key" Digest.form DriveClosure.drive)

/- The fields of a verification round. -/
def VerificationRound.fields :
    RecordFields VerificationRound VerificationRound :=
  VerificationRound.mk
    <$> field "drive_key" Digest.form VerificationRound.drive
    <*> field "verification_trigger" Digest.form
      VerificationRound.trigger
    <*> field "provers" (.list Digest.form)
      VerificationRound.provers
    <*> field "opinions" (.list Opinion.form)
      VerificationRound.opinions

/- Rounds whose opinions line up with their provers. -/
def VerificationRound.form : JsonForm VerificationRound :=
  VerificationRound.fields.form.checked fun round =>
    VerificationRound.make round.drive round.trigger
      round.provers round.opinions

/- Deployments of supercontracts. -/
def Deploy.form : JsonForm Deploy :=
  RecordFields.form
    (Deploy.mk
      <$> field "drive_key" Digest.form Deploy.drive
      <*> field "owner" Digest.form Deploy.owner
      <*> field "file_hash" Digest.form Deploy.fileHash
      <*> field "vm_version" .uint64 Deploy.vmVersion)

/- Amounts of tokens. -/
def Mosaic.form : JsonForm Mosaic :=
  RecordFields.form
    (Mosaic.mk
      <$> field "id" .uint64 Mosaic.id
      <*> field "amount" Amount.form Mosaic.amount)

/- Calls of supercontracts. -/
def StartExecute.form : JsonForm StartExecute :=
  RecordFields.form
    (StartExecute.mk
      <$> field "super_contract" Digest.form
        StartExecute.superContract
      <*> field "function" .text StartExecute.function
      <*> field "mosaics" (.list Mosaic.form)
        StartExecute.mosaics
      <*> field "data" .bytes StartExecute.data)

namespace Operation

/- Read an operation of a known kind. -/
def readContent
    (kind : OperationKind)
    (value : JsonValue) : Except JsonFault Operation :=
  match kind with
  | .replicatorOnboarding =>
      (ReplicatorOnboarding.form.read value).map
        .replicatorOnboarding
  | .prepareDrive =>
      (PrepareDrive.form.read value).map .prepareDrive
  | .dataModification =>
      (DataModification.form.read value).map
        .dataModification
  | .dataModificationCancel =>
      (DataModificationCancel.form.read value).map
        .dataModificationCancel
  | .driveClosure =>
      (DriveClosure.form.read value).map .driveClosure
  | .endDriveVerification =>
      (VerificationRound.form.read value).map
        .endDriveVerification
  | .deploy => (Deploy.form.read value).map .deploy
  | .startExecute =>
      (StartExecute.form.read value).map .startExecute

/- Write an operation without its kind. -/
def writeContent : Operation → JsonValue
  | .replicatorOnboarding content =>
      ReplicatorOnboarding.form.write content
  | .prepareDrive content => PrepareDrive.form.write content
  | .dataModification content =>
      DataModification.form.write content
  | .dataModificationCancel content =>
      DataModificationCancel.form.write content
  | .driveClosure content => DriveClosure.form.write content
  | .endDriveVerification content =>
      VerificationRound.form.write content
  | .deploy content => Deploy.form.write content
  | .startExecute content => StartExecute.form.write content

end Operation

------------------------------------------------------------
-- Bodies
------------------------------------------------------------

/- Cosignatures. -/
def Cosignature.form : JsonForm Cosignature :=
  RecordFields.form
    (Cosignature.mk
      <$> field "signer" Digest.form Cosignature.signer
      <*> field "signature" Signature.form
        Cosignature.signature)

/- Embedded transactions, given the form of their bodies. -/
def Embedded.formWith
    (body : JsonForm Body) : JsonForm Embedded :=
  RecordFields.form
    (Embedded.mk
      <$> field "signer" Digest.form Embedded.signer
      <*> field "network_type" Network.form Embedded.network
      <*> field "body" body Embedded.body)

/- Aggregates, given the form of the bodies inside. -/
def Aggregate.formWith
    (body : JsonForm Body) : JsonForm Aggregate :=
  RecordFields.form
    (Aggregate.mk
      <$> field "transactions"
        (.list (Embedded.formWith body))
        Aggregate.transactions
      <*> field "cosignatures" (.list Cosignature.form)
        Aggregate.cosignatures)

mutual

/- Write a body as the only member of an object. -/
def Body.toJson : Body → JsonValue
  | .operation content =>
      .object [(content.kind.name, content.writeContent)]
  | .aggregate form content =>
      .object [(form.name, content.toJson)]
termination_by structural body => body

/- Write the fields of an embedded transaction. -/
def Embedded.toJson : Embedded → JsonValue
  | ⟨signer, network, body⟩ =>
      .object [
        ("signer", Digest.form.write signer),
        ("network_type", Network.form.write network),
        ("body", body.toJson)]
termination_by structural embedded => embedded

/- Write the fields of an aggregate. -/
def Aggregate.toJson : Aggregate → JsonValue
  | ⟨transactions, cosignatures⟩ =>
      .object [
        ("transactions",
          .list (Embedded.listToJson transactions)),
        ("cosignatures",
          (JsonForm.list Cosignature.form).write
            cosignatures)]
termination_by structural aggregate => aggregate

/- Write the transactions of an aggregate. -/
def Embedded.listToJson : List Embedded → List JsonValue
  | [] => []
  | embedded :: rest =>
      embedded.toJson :: Embedded.listToJson rest
termination_by structural transactions => transactions

end

/- Read a body in which bodies are nested at most so deeply. -/
def Body.readNested :
    (nesting : Nat) →
    JsonValue →
    Except JsonFault Body
  | nesting, .object [(name, content)] =>
      match TransactionKind.ofName? name, nesting with
      | some (.operation kind), _ =>
          (Operation.readContent kind content).map .operation
      | some (.aggregate form), nesting + 1 =>
          let inner : JsonForm Body :=
            { read := Body.readNested nesting
              write := Body.toJson }
          ((Aggregate.formWith inner).read content).map
            (.aggregate form)
      | _, _ => .error .malformed
  | _, _ => .error .malformed

/-
  Bodies.  No body is nested more deeply than the value that
  it is read from.
-/
def Body.form : JsonForm Body :=
  { read := fun value => Body.readNested value.depth value
    write := Body.toJson }

/- Embedded transactions. -/
def Embedded.form : JsonForm Embedded :=
  Embedded.formWith Body.form

/- Aggregates. -/
def Aggregate.form : JsonForm Aggregate :=
  Aggregate.formWith Body.form

------------------------------------------------------------
-- Transactions
------------------------------------------------------------

/- Headers. -/
def Header.form : JsonForm Header :=
  RecordFields.form
    (Header.mk
      <$> field "signature" Signature.form Header.signature
      <*> field "signer" Digest.form Header.signer
      <*> field "network_type" Network.form Header.network
      <*> field "max_fee" Amount.form Header.maxFee
      <*> field "deadline" Deadline.form Header.deadline)

/- Transactions. -/
def Transaction.form : JsonForm Transaction :=
  RecordFields.form
    (Transaction.mk
      <$> field "header" Header.form Transaction.header
      <*> field "body" Body.form Transaction.body)

end DriveMarket
