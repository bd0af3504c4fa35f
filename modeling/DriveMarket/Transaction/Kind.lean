import DriveMarket.Network

/-
  The kinds of transaction, and the header word that packs a
  network with the version of a kind.

  A transaction is either a single operation on the market or
  an aggregate, which envelops operations of several accounts.

  Key definitions include:
    * `OperationKind`
    * `AggregateForm`
    * `TransactionKind`
    * `TransactionKind.tag`
    * `TransactionKind.version`
    * `VersionWord.pack`
    * `VersionWord.unpack`
-/

namespace DriveMarket

------------------------------------------------------------
-- Kinds
------------------------------------------------------------

/- What a single operation does. -/
inductive OperationKind where
  | prepareDrive
  | dataModification
  | dataModificationCancel
  | replicatorOnboarding
  | driveClosure
  | endDriveVerification
  | deploy
  | startExecute
deriving DecidableEq

/-
  Whether an aggregate is announced with all cosignatures or
  collects them afterwards.
-/
inductive AggregateForm where
  | complete
  | bonded
deriving DecidableEq

/- What a transaction does. -/
inductive TransactionKind where
  | operation (kind : OperationKind)
  | aggregate (form : AggregateForm)
deriving DecidableEq

/- The name of an aggregate form. -/
def AggregateForm.name : AggregateForm → String
  | .complete => "AggregateComplete"
  | .bonded => "AggregateBonded"

/- The name of an operation. -/
def OperationKind.name : OperationKind → String
  | .prepareDrive => "PrepareBcDrive"
  | .dataModification => "DataModification"
  | .dataModificationCancel => "DataModificationCancel"
  | .replicatorOnboarding => "ReplicatorOnboarding"
  | .driveClosure => "DriveClosure"
  | .endDriveVerification => "EndDriveVerificationV2"
  | .deploy => "Deploy"
  | .startExecute => "StartExecute"

namespace TransactionKind

/- Every kind, in order of declaration. -/
def all : List TransactionKind :=
  [.aggregate .complete, .aggregate .bonded,
    .operation .prepareDrive, .operation .dataModification,
    .operation .dataModificationCancel,
    .operation .replicatorOnboarding,
    .operation .driveClosure,
    .operation .endDriveVerification, .operation .deploy,
    .operation .startExecute]

/- The number of a kind on the wire. -/
def tag : TransactionKind → UInt16
  | .aggregate .complete => 0x4141
  | .aggregate .bonded => 0x4241
  | .operation .prepareDrive => 0x4162
  | .operation .dataModification => 0x4262
  | .operation .dataModificationCancel => 0x4562
  | .operation .replicatorOnboarding => 0x4662
  | .operation .driveClosure => 0x4E62
  | .operation .endDriveVerification => 0x4F62
  | .operation .deploy => 0x415E
  | .operation .startExecute => 0x425E

/- The kind of a number, if there is one. -/
def ofTag?
    (n : UInt16) : Option TransactionKind :=
  all.find? (·.tag == n)

/- The name of a kind. -/
def name : TransactionKind → String
  | .operation kind => kind.name
  | .aggregate form => form.name

/- The kind of a name, if there is one. -/
def ofName?
    (text : String) : Option TransactionKind :=
  all.find? (·.name == text)

/- Whether transactions of the kind envelop others. -/
def isAggregate : TransactionKind → Bool
  | .operation _ => false
  | .aggregate _ => true

/- The version of a kind that is read and written. -/
def version : TransactionKind → UInt8
  | .operation _ => 1
  | .aggregate _ => 3

theorem ofTag?_tag
    (kind : TransactionKind) :
    ofTag? kind.tag = some kind := by
  rcases kind with kind | form
  · cases kind <;> decide
  · cases form <;> decide

theorem ofName?_name
    (kind : TransactionKind) :
    ofName? kind.name = some kind := by
  rcases kind with kind | form
  · cases kind <;> decide
  · cases form <;> decide

end TransactionKind

------------------------------------------------------------
-- Version Words
------------------------------------------------------------

namespace VersionWord

/- A network byte above a 24-bit version. -/
def pack
    (network : Network)
    (version : UInt8) : UInt32 :=
  UInt32.ofNat
    (network.byte.toNat * 0x1000000 + version.toNat)

/- The network byte and the version of a word. -/
def unpack
    (word : UInt32) : UInt8 × Nat :=
  (UInt8.ofNat (word.toNat / 0x1000000),
    word.toNat % 0x1000000)

/- A packed word comes apart into what was packed. -/
theorem unpack_pack
    (network : Network)
    (version : UInt8) :
    unpack (pack network version) =
      (network.byte, version.toNat) := by
  have hNetwork := network.byte.toNat_lt
  have hVersion := version.toNat_lt
  simp only [unpack, pack, UInt32.toNat_ofNat',
    Prod.mk.injEq]
  constructor
  · apply UInt8.toNat.inj
    simp only [UInt8.toNat_ofNat']
    omega
  · omega

end VersionWord

end DriveMarket
