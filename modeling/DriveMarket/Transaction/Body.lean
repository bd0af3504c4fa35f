import DriveMarket.Deadline
import DriveMarket.Transaction.Kind
import DriveMarket.Verification.Opinion

/-
  What transactions say.

  A transaction has a header, which its signer stands for, and
  a body.  The body is one operation, or the embedded
  transactions of an aggregate with the cosignatures collected
  for it.  The kind of a transaction follows from its body.

  Key definitions include:
    * `VerificationRound`
    * `VerificationRound.make`
    * `Operation`
    * `Body`
    * `Embedded`
    * `Aggregate`
    * `Cosignature`
    * `Header`
    * `Transaction`
-/

namespace DriveMarket

------------------------------------------------------------
-- Operations
------------------------------------------------------------

/- A replicator stakes capacity and registers its BLS key. -/
structure ReplicatorOnboarding where
  capacity : Amount
  blsKey : BlsPublicKey
deriving DecidableEq

/- An owner rents a new drive. -/
structure PrepareDrive where
  size : StorageSize
  verificationFee : Amount
  replicatorCount : UInt16
deriving DecidableEq

/-
  A change to the files of a drive.  The hash of its
  transaction becomes the id of the modification.
-/
structure DataModification where
  drive : PublicKey
  downloadData : Digest
  uploadSize : StorageSize
  feedbackFee : Amount
deriving DecidableEq

/- An owner withdraws an active modification. -/
structure DataModificationCancel where
  drive : PublicKey
  modification : Digest
deriving DecidableEq

/- An owner gives up a drive. -/
structure DriveClosure where
  drive : PublicKey
deriving DecidableEq

/-
  The outcome of a verification round with the opinions of
  all verifiers.
-/
structure VerificationRound where
  drive : PublicKey
  trigger : Digest
  provers : List PublicKey
  opinions : List Opinion
deriving DecidableEq

/- A supercontract stored on a drive is put to use. -/
structure Deploy where
  drive : PublicKey
  owner : PublicKey
  fileHash : Digest
  vmVersion : UInt64
deriving DecidableEq

/- An amount of one token, attached to a call. -/
structure Mosaic where
  id : UInt64
  amount : Amount
deriving DecidableEq

/- A function of a deployed supercontract is called. -/
structure StartExecute where
  superContract : PublicKey
  function : String
  mosaics : List Mosaic
  data : Bytes
deriving DecidableEq

namespace VerificationRound

/- Whether the opinions line up with the provers. -/
def validate
    (round : VerificationRound) : Except ModelError Unit :=
  checkShapes round.provers.length round.opinions

/- A round whose opinions line up with its provers. -/
def make
    (drive : PublicKey)
    (trigger : Digest)
    (provers : List PublicKey)
    (opinions : List Opinion) :
    Except ModelError VerificationRound := do
  checkShapes provers.length opinions
  return {
    drive := drive
    trigger := trigger
    provers := provers
    opinions := opinions }

end VerificationRound

/- A single operation. -/
inductive Operation where
  | replicatorOnboarding (content : ReplicatorOnboarding)
  | prepareDrive (content : PrepareDrive)
  | dataModification (content : DataModification)
  | dataModificationCancel (content : DataModificationCancel)
  | driveClosure (content : DriveClosure)
  | endDriveVerification (content : VerificationRound)
  | deploy (content : Deploy)
  | startExecute (content : StartExecute)
deriving DecidableEq

/- The kind of an operation. -/
def Operation.kind : Operation → OperationKind
  | .replicatorOnboarding _ => .replicatorOnboarding
  | .prepareDrive _ => .prepareDrive
  | .dataModification _ => .dataModification
  | .dataModificationCancel _ => .dataModificationCancel
  | .driveClosure _ => .driveClosure
  | .endDriveVerification _ => .endDriveVerification
  | .deploy _ => .deploy
  | .startExecute _ => .startExecute

------------------------------------------------------------
-- Bodies
------------------------------------------------------------

/- A signature of an aggregate's hash. -/
structure Cosignature where
  signer : PublicKey
  signature : Signature
deriving DecidableEq

mutual

/- What a transaction does. -/
inductive Body where
  | operation (content : Operation)
  | aggregate (form : AggregateForm) (content : Aggregate)

/-
  A transaction inside an aggregate.  Fee, deadline and
  signature belong to the envelope.
-/
structure Embedded where
  signer : PublicKey
  network : Network
  body : Body

/-
  The transactions of an aggregate, and the cosignatures
  collected so far.
-/
structure Aggregate where
  transactions : List Embedded
  cosignatures : List Cosignature

end

/- The kind of a body. -/
def Body.kind : Body → TransactionKind
  | .operation content => .operation content.kind
  | .aggregate form _ => .aggregate form

/- The kind of an embedded transaction. -/
def Embedded.kind
    (embedded : Embedded) : TransactionKind :=
  embedded.body.kind

/- The content of a body that is an aggregate. -/
def Body.aggregate? : Body → Option Aggregate
  | .operation _ => none
  | .aggregate _ content => some content

/- A body with other cosignatures, if it is an aggregate. -/
def Body.withCosignatures
    (cosignatures : List Cosignature) : Body → Body
  | .operation content => .operation content
  | .aggregate form content =>
      .aggregate form
        { content with cosignatures := cosignatures }

------------------------------------------------------------
-- Transactions
------------------------------------------------------------

/-
  The header of a transaction.  Signature and signer are zero
  until it is signed.
-/
structure Header where
  signature : Signature
  signer : PublicKey
  network : Network
  maxFee : Amount
  deadline : Deadline
deriving DecidableEq

/- A header that nobody has signed. -/
def Header.unsigned
    (network : Network)
    (maxFee : Amount)
    (deadline : Deadline) : Header :=
  { signature := .zero 64
    signer := .zero 32
    network := network
    maxFee := maxFee
    deadline := deadline }

/- Whether a header has a signature. -/
def Header.isSigned
    (header : Header) : Bool :=
  !header.signature.isZero

/- A transaction on its own. -/
structure Transaction where
  header : Header
  body : Body

namespace Transaction

/- The kind of a transaction. -/
def kind
    (tx : Transaction) : TransactionKind :=
  tx.body.kind

/- The version word of a transaction's header. -/
def versionWord
    (tx : Transaction) : UInt32 :=
  VersionWord.pack tx.header.network tx.kind.version

/- The transaction with other cosignatures. -/
def withCosignatures
    (cosignatures : List Cosignature)
    (tx : Transaction) : Transaction :=
  { tx with body := tx.body.withCosignatures cosignatures }

end Transaction

end DriveMarket
