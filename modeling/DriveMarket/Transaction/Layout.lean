import DriveMarket.Table.Schema
import DriveMarket.Transaction.Kind

/-
  The layouts of transactions.

  The header of a transaction takes 122 bytes: the size, the
  signature, the signer, the version word, the type, the fee
  and the deadline.  What is signed starts at the version
  word, 100 bytes in.  The header of an embedded transaction
  is the size, the signer, the version word and the type.

  New fields are only ever added at the end of a body.

  Key definitions include:
    * `HeaderSlot`
    * `EmbeddedSlot`
    * `Layout.headerFields`
    * `Layout.embeddedHeaderFields`
    * `Layout.bodyFields`
    * `Layout.ofKind`
    * `Layout.embeddedOfKind`
-/

namespace DriveMarket

------------------------------------------------------------
-- Sizes
------------------------------------------------------------

/- The width of the header with its size prefix. -/
def headerSize : Nat :=
  122

/- The width of an embedded header with its size prefix. -/
def embeddedHeaderSize : Nat :=
  42

/- Where the signed part of a transaction starts. -/
def signedStart : Nat :=
  100

------------------------------------------------------------
-- Slots
------------------------------------------------------------

/- The slots of a transaction's header. -/
namespace HeaderSlot

def signature : Nat := 0
def signer : Nat := 1
def version : Nat := 2
def type : Nat := 3
def maxFee : Nat := 4
def deadline : Nat := 5

end HeaderSlot

/- The slots of an embedded transaction's header. -/
namespace EmbeddedSlot

def signer : Nat := 0
def version : Nat := 1
def type : Nat := 2

end EmbeddedSlot

namespace Layout

------------------------------------------------------------
-- Headers
------------------------------------------------------------

/- A field of 32 bytes: a key or a digest. -/
def key
    (name : String) : Field :=
  ⟨name, .fixed 32⟩

/- The header of a transaction. -/
def headerFields : List Field :=
  [⟨"signature", .fixed 64⟩,
    key "signer",
    ⟨"version", .u32⟩,
    ⟨"type", .u16⟩,
    ⟨"maxFee", .u64⟩,
    ⟨"deadline", .u64⟩]

/- The header of an embedded transaction. -/
def embeddedHeaderFields : List Field :=
  [key "signer",
    ⟨"version", .u32⟩,
    ⟨"type", .u16⟩]

/- The header on its own, to learn the kind of a transaction. -/
def headerOnly : Layout :=
  table "TransactionHeader" headerFields

/- The embedded header on its own. -/
def embeddedHeaderOnly : Layout :=
  table "EmbeddedTransactionHeader" embeddedHeaderFields

------------------------------------------------------------
-- Bodies
------------------------------------------------------------

/- One result of an opinion. -/
def resultFields : List Field :=
  [⟨"prover", .u16⟩,
    ⟨"result", .u8⟩]

/- One opinion of a round. -/
def opinionFields : List Field :=
  [⟨"verifier", .u16⟩,
    ⟨"blsSignature", .fixed 96⟩,
    ⟨"results", .tables resultFields⟩]

/- One mosaic of a call. -/
def mosaicFields : List Field :=
  [⟨"id", .u64⟩,
    ⟨"amount", .u64⟩]

/- One cosignature of an aggregate. -/
def cosignatureFields : List Field :=
  [key "signer",
    ⟨"signature", .fixed 64⟩]

/- The fields of each operation. -/
def operationFields : OperationKind → List Field
  | .replicatorOnboarding =>
      [⟨"capacity", .u64⟩,
        ⟨"blsPublicKey", .fixed 48⟩]
  | .prepareDrive =>
      [⟨"driveSize", .u64⟩,
        ⟨"verificationFeeAmount", .u64⟩,
        ⟨"replicatorCount", .u16⟩]
  | .dataModification =>
      [key "driveKey",
        key "downloadDataCdi",
        ⟨"uploadSize", .u64⟩,
        ⟨"feedbackFeeAmount", .u64⟩]
  | .dataModificationCancel =>
      [key "driveKey",
        key "dataModificationId"]
  | .driveClosure =>
      [key "driveKey"]
  | .endDriveVerification =>
      [key "driveKey",
        key "verificationTrigger",
        ⟨"provers", .array 32⟩,
        ⟨"opinions", .tables opinionFields⟩]
  | .deploy =>
      [key "driveKey",
        key "owner",
        key "fileHash",
        ⟨"vmVersion", .u64⟩]
  | .startExecute =>
      [key "superContract",
        ⟨"function", .bytes⟩,
        ⟨"mosaics", .tables mosaicFields⟩,
        ⟨"data", .bytes⟩]

/- The fields of an aggregate. -/
def aggregateFields : List Field :=
  [⟨"transactions", .entities⟩,
    ⟨"cosignatures", .tables cosignatureFields⟩]

/- The fields of a body. -/
def bodyFields : TransactionKind → List Field
  | .operation kind => operationFields kind
  | .aggregate _ => aggregateFields

------------------------------------------------------------
-- Whole Transactions
------------------------------------------------------------

/- The layout of a transaction. -/
def ofKind
    (kind : TransactionKind) : Layout :=
  { name := kind.name
    header := headerFields
    body := bodyFields kind }

/- The layout of an embedded transaction. -/
def embeddedOfKind
    (kind : TransactionKind) : Layout :=
  { name := kind.name
    header := embeddedHeaderFields
    body := bodyFields kind }

/- The slot of an aggregate's cosignatures. -/
def cosignatureSlot : Nat :=
  headerFields.length + 1

/- What is signed starts at the version, whatever the kind. -/
theorem fixedOffset_version
    (kind : TransactionKind) :
    (ofKind kind).fixedOffset 2 = some signedStart := by
  rcases kind with kind | form
  · cases kind <;> decide
  · cases form <;> decide

/- The stated sizes are those that the headers have. -/
example : headerOnly.minSize = headerSize := by decide
example : embeddedHeaderOnly.minSize = embeddedHeaderSize := by
  decide

end Layout

end DriveMarket
