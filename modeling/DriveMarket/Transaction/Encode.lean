import DriveMarket.Bytes.Text
import DriveMarket.Table.Writer
import DriveMarket.Transaction.Body
import DriveMarket.Transaction.Error
import DriveMarket.Transaction.Layout

/-
  Writing transactions.

  A transaction is written as one table of its layout.  Equal
  transactions have equal bytes, which signatures depend on.

  Key definitions include:
    * `Operation.values`
    * `Embedded.encode`
    * `Body.values`
    * `Transaction.encodeTable`
    * `Transaction.encode`
-/

namespace DriveMarket

------------------------------------------------------------
-- Values
------------------------------------------------------------

/- A fixed-width field. -/
def FixedBytes.field
    {width : Nat}
    (bytes : FixedBytes width) : Value :=
  .fixed bytes.toList

/- The row of one result. -/
def VerificationResult.row
    (result : VerificationResult) : List Value :=
  [.u16 result.prover,
    .u8 (if result.passed then 1 else 0)]

/- The row of one opinion. -/
def Opinion.row
    (opinion : Opinion) : List Value :=
  [.u16 opinion.verifier,
    opinion.signature.field,
    .tables (opinion.results.map (·.row))]

/- The row of one mosaic. -/
def Mosaic.row
    (mosaic : Mosaic) : List Value :=
  [.u64 mosaic.id,
    .u64 mosaic.amount.value]

/- The row of one cosignature. -/
def Cosignature.row
    (cosignature : Cosignature) : List Value :=
  [cosignature.signer.field,
    cosignature.signature.field]

/- The fields of an operation, in the order of its layout. -/
def Operation.values : Operation → List Value
  | .replicatorOnboarding content =>
      [.u64 content.capacity.value,
        content.blsKey.field]
  | .prepareDrive content =>
      [.u64 content.size.value,
        .u64 content.verificationFee.value,
        .u16 content.replicatorCount]
  | .dataModification content =>
      [content.drive.field,
        content.downloadData.field,
        .u64 content.uploadSize.value,
        .u64 content.feedbackFee.value]
  | .dataModificationCancel content =>
      [content.drive.field,
        content.modification.field]
  | .driveClosure content =>
      [content.drive.field]
  | .endDriveVerification content =>
      [content.drive.field,
        content.trigger.field,
        .array (content.provers.map (·.toList)),
        .tables (content.opinions.map (·.row))]
  | .deploy content =>
      [content.drive.field,
        content.owner.field,
        content.fileHash.field,
        .u64 content.vmVersion]
  | .startExecute content =>
      [content.superContract.field,
        .bytes (Text.encode content.function),
        .tables (content.mosaics.map (·.row)),
        .bytes content.data]

------------------------------------------------------------
-- Embedded Transactions
------------------------------------------------------------

/- A table, with its errors as those of a transaction. -/
def encodeLayout
    (layout : Layout)
    (values : List Value) :
    Except TransactionError EncodedTable :=
  (writeTable layout values).mapError .table

/- The header fields of an embedded transaction. -/
def Embedded.headerValues
    (embedded : Embedded) : List Value :=
  [embedded.signer.field,
    .u32
      (VersionWord.pack embedded.network embedded.kind.version),
    .u16 embedded.kind.tag]

/- An embedded transaction; aggregates do not nest. -/
def Embedded.encode
    (embedded : Embedded) : Except TransactionError Bytes :=
  match embedded.body with
  | .aggregate form _ =>
      .error (.form (.notEmbeddable form))
  | .operation content => do
      let table ←
        encodeLayout (.embeddedOfKind embedded.kind)
          (embedded.headerValues ++ content.values)
      return table.bytes

------------------------------------------------------------
-- Transactions
------------------------------------------------------------

/- The fields of a body, in the order of its layout. -/
def Body.values :
    Body →
    Except TransactionError (List Value)
  | .operation content => .ok content.values
  | .aggregate _ content => do
      let entities ← content.transactions.mapM Embedded.encode
      return [
        .entities entities,
        .tables (content.cosignatures.map (·.row))]

/- The header fields of a transaction. -/
def Transaction.headerValues
    (tx : Transaction) : List Value :=
  [tx.header.signature.field,
    tx.header.signer.field,
    .u32 tx.versionWord,
    .u16 tx.kind.tag,
    .u64 tx.header.maxFee.value,
    .u64 tx.header.deadline.value]

/- A transaction as a table, with the offsets of its fields. -/
def Transaction.encodeTable
    (tx : Transaction) :
    Except TransactionError EncodedTable := do
  let body ← tx.body.values
  encodeLayout (.ofKind tx.kind) (tx.headerValues ++ body)

/- The bytes of a transaction. -/
def Transaction.encode
    (tx : Transaction) : Except TransactionError Bytes := do
  let table ← tx.encodeTable
  return table.bytes

end DriveMarket
