import DriveMarket.Bytes.Text
import DriveMarket.Table.Record
import DriveMarket.Transaction.Body
import DriveMarket.Transaction.Error
import DriveMarket.Transaction.Layout

/-
  Reading transactions.

  The header is read first to learn the kind, then the whole
  table with the layout of that kind.  A buffer must hold one
  table and nothing else, of a known kind and network and in
  the current version.

  Key definitions include:
    * `Operation.ofRecord`
    * `Embedded.decode`
    * `Body.ofRecord`
    * `Transaction.decode`
-/

namespace DriveMarket

------------------------------------------------------------
-- Errors of the Parts
------------------------------------------------------------

/- A table error is told as the error of a transaction. -/
instance liftTableError :
    MonadLift (Except TableError) (Except TransactionError) :=
  ⟨Except.mapError .table⟩

/- A form error is told as the error of a transaction. -/
instance liftFormError :
    MonadLift (Except FormError) (Except TransactionError) :=
  ⟨Except.mapError .form⟩

@[simp]
theorem liftM_table_ok
    {α : Type}
    (a : α) :
    (liftM (.ok a : Except TableError α) :
      Except TransactionError α) = .ok a :=
  rfl

@[simp]
theorem liftM_table_error
    {α : Type}
    (cause : TableError) :
    (liftM (.error cause : Except TableError α) :
      Except TransactionError α) = .error (.table cause) :=
  rfl

@[simp]
theorem liftM_form_ok
    {α : Type}
    (a : α) :
    (liftM (.ok a : Except FormError α) :
      Except TransactionError α) = .ok a :=
  rfl

@[simp]
theorem liftM_form_error
    {α : Type}
    (cause : FormError) :
    (liftM (.error cause : Except FormError α) :
      Except TransactionError α) = .error (.form cause) :=
  rfl

------------------------------------------------------------
-- Rows
------------------------------------------------------------

/- The result of a row. -/
def VerificationResult.ofRecord
    (row : Record) :
    Except TransactionError VerificationResult := do
  let byte ← row.u8 1
  let passed ←
    match byte with
    | 0 => .ok false
    | 1 => .ok true
    | _ => .error (.form (.resultByte byte))
  let prover ← row.u16 0
  return {
    prover := prover
    passed := passed }

/- The opinion of a row. -/
def Opinion.ofRecord
    (row : Record) : Except TransactionError Opinion := do
  let rows ← row.rows 2
  let results ← rows.mapM VerificationResult.ofRecord
  let verifier ← row.u16 0
  let signature ← row.fixed 96 1
  return {
    verifier := verifier
    signature := signature
    results := results }

/- The mosaic of a row. -/
def Mosaic.ofRecord
    (row : Record) : Except TransactionError Mosaic := do
  let id ← row.u64 0
  let amount ← row.u64 1
  return {
    id := id
    amount := ⟨amount⟩ }

/- The cosignature of a row. -/
def Cosignature.ofRecord
    (row : Record) : Except TransactionError Cosignature := do
  let signer ← row.fixed 32 0
  let signature ← row.fixed 64 1
  return {
    signer := signer
    signature := signature }

------------------------------------------------------------
-- Operations
------------------------------------------------------------

/- The key of a prover in the list of a round. -/
def proverKey
    (table : String)
    (bytes : Bytes) : Except TransactionError PublicKey :=
  match FixedBytes.ofList? 32 bytes with
  | some key => .ok key
  | none =>
      .error
        (.table (.kindMismatch table "provers" "array(32)"))

/- The name of the function that a contract is called with. -/
def functionName
    (bytes : Bytes) : Except TransactionError String :=
  match Text.decode? bytes with
  | some text => .ok text
  | none => .error (.form .functionNotText)

/- The operation of a kind, whose fields start at a slot. -/
def Operation.ofRecord
    (kind : OperationKind)
    (record : Record)
    (start : Nat) : Except TransactionError Operation :=
  match kind with
  | .replicatorOnboarding => do
      let capacity ← record.u64 start
      let blsKey ← record.fixed 48 (start + 1)
      return .replicatorOnboarding {
        capacity := ⟨capacity⟩
        blsKey := blsKey }
  | .prepareDrive => do
      let size ← record.u64 start
      let fee ← record.u64 (start + 1)
      let count ← record.u16 (start + 2)
      return .prepareDrive {
        size := ⟨size⟩
        verificationFee := ⟨fee⟩
        replicatorCount := count }
  | .dataModification => do
      let drive ← record.fixed 32 start
      let data ← record.fixed 32 (start + 1)
      let size ← record.u64 (start + 2)
      let fee ← record.u64 (start + 3)
      return .dataModification {
        drive := drive
        downloadData := data
        uploadSize := ⟨size⟩
        feedbackFee := ⟨fee⟩ }
  | .dataModificationCancel => do
      let drive ← record.fixed 32 start
      let id ← record.fixed 32 (start + 1)
      return .dataModificationCancel {
        drive := drive
        modification := id }
  | .driveClosure => do
      let drive ← record.fixed 32 start
      return .driveClosure { drive := drive }
  | .endDriveVerification => do
      let keys ← record.array (start + 2)
      let provers ← keys.mapM (proverKey record.name)
      let rows ← record.rows (start + 3)
      let opinions ← rows.mapM Opinion.ofRecord
      let drive ← record.fixed 32 start
      let trigger ← record.fixed 32 (start + 1)
      return .endDriveVerification {
        drive := drive
        trigger := trigger
        provers := provers
        opinions := opinions }
  | .deploy => do
      let drive ← record.fixed 32 start
      let owner ← record.fixed 32 (start + 1)
      let file ← record.fixed 32 (start + 2)
      let version ← record.u64 (start + 3)
      return .deploy {
        drive := drive
        owner := owner
        fileHash := file
        vmVersion := version }
  | .startExecute => do
      let bytes ← record.bytes (start + 1)
      let function ← functionName bytes
      let rows ← record.rows (start + 2)
      let mosaics ← rows.mapM Mosaic.ofRecord
      let contract ← record.fixed 32 start
      let data ← record.bytes (start + 3)
      return .startExecute {
        superContract := contract
        function := function
        mosaics := mosaics
        data := data }

------------------------------------------------------------
-- Headers
------------------------------------------------------------

/- A header read on its own must span the whole buffer. -/
def requireExactSize
    (header : DecodedTable)
    (buffer : Bytes) : Except TableError Unit :=
  if header.size = buffer.length then
    .ok ()
  else
    .error
      (.sizeMismatch header.layout.name header.size
        buffer.length)

/- The network of a version word that fits a kind. -/
def readNetwork
    (kind : TransactionKind)
    (word : UInt32) : Except FormError Network :=
  let (byte, version) := VersionWord.unpack word
  match Network.ofByte? byte with
  | none => .error (.unknownNetwork byte)
  | some network =>
      if version = kind.version.toNat then
        .ok network
      else
        .error (.unsupportedVersion version kind)

/- The kind of a type field. -/
def readTag
    (tag : UInt16) : Except FormError TransactionKind :=
  match TransactionKind.ofTag? tag with
  | none => .error (.unknownKind tag)
  | some kind => .ok kind

/- The kind and network that a header tells. -/
def readTags
    (versionSlot typeSlot : Nat)
    (header : Record) :
    Except TransactionError (TransactionKind × Network) := do
  let tag ← header.u16 typeSlot
  let kind ← readTag tag
  let word ← header.u32 versionSlot
  let network ← readNetwork kind word
  return (kind, network)

------------------------------------------------------------
-- Embedded Transactions
------------------------------------------------------------

/- The kind and network of an embedded transaction. -/
def Embedded.readKind
    (buffer : Bytes) :
    Except TransactionError (TransactionKind × Network) := do
  let header ← readTable .embeddedHeaderOnly buffer
  requireExactSize header buffer
  readTags EmbeddedSlot.version EmbeddedSlot.type
    header.record

/- An embedded transaction; aggregates do not nest. -/
def Embedded.decode
    (buffer : Bytes) :
    Except TransactionError Embedded := do
  let (kind, network) ← Embedded.readKind buffer
  match kind with
  | .aggregate form => throw (.form (.notEmbeddable form))
  | .operation op => do
      let layout := Layout.embeddedOfKind kind
      let table ← readTable layout buffer
      let signer ← table.record.fixed 32 EmbeddedSlot.signer
      let content ←
        Operation.ofRecord op table.record layout.bodyStart
      return {
        signer := signer
        network := network
        body := .operation content }

------------------------------------------------------------
-- Transactions
------------------------------------------------------------

/- The body of a kind, whose fields start at a slot. -/
def Body.ofRecord
    (kind : TransactionKind)
    (record : Record)
    (start : Nat) : Except TransactionError Body :=
  match kind with
  | .operation op => do
      let content ← Operation.ofRecord op record start
      return .operation content
  | .aggregate form => do
      let entities ← record.entities start
      let transactions ← entities.mapM Embedded.decode
      let rows ← record.rows (start + 1)
      let cosignatures ← rows.mapM Cosignature.ofRecord
      return .aggregate form {
        transactions := transactions
        cosignatures := cosignatures }

/- The kind and network of a transaction. -/
def Transaction.readKind
    (buffer : Bytes) :
    Except TransactionError (TransactionKind × Network) := do
  let header ← readTable .headerOnly buffer
  requireExactSize header buffer
  readTags HeaderSlot.version HeaderSlot.type header.record

/- A transaction; the buffer must hold exactly its table. -/
def Transaction.decode
    (buffer : Bytes) :
    Except TransactionError Transaction := do
  let (kind, network) ← Transaction.readKind buffer
  let layout := Layout.ofKind kind
  let table ← readTable layout buffer
  let signature ← table.record.fixed 64 HeaderSlot.signature
  let signer ← table.record.fixed 32 HeaderSlot.signer
  let maxFee ← table.record.u64 HeaderSlot.maxFee
  let deadline ← table.record.u64 HeaderSlot.deadline
  let body ←
    Body.ofRecord kind table.record layout.bodyStart
  return {
    header := {
      signature := signature
      signer := signer
      network := network
      maxFee := ⟨maxFee⟩
      deadline := ⟨deadline⟩ }
    body := body }

end DriveMarket
