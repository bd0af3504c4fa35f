import DriveMarket.Drive.Modification
import DriveMarket.ModelError

/-
  Drives: rented storage with its modifications.

  An active modification has an id that no other active one
  and no completed one has.  Completing moves it from the
  active list to the end of the completed list.

  Key definitions include:
    * `Drive`
    * `Drive.prepared`
    * `Drive.add`
    * `Drive.complete`
    * `Drive.withModifications`
    * `Drive.freeSize`
-/

namespace DriveMarket

/-
  A rented drive: its account and owner, the digest of its
  content, its declared size and what is used of it, and how
  many replicators it needs.
-/
structure Drive where
  key : PublicKey
  owner : PublicKey
  rootHash : Digest
  size : StorageSize
  usedSize : StorageSize
  metaFilesSize : StorageSize
  replicatorCount : UInt16
  active : List Modification
  completed : List CompletedModification
deriving DecidableEq

namespace Drive

/- A drive that was just prepared and has no content. -/
def prepared
    (key owner : PublicKey)
    (size : StorageSize)
    (replicatorCount : UInt16) : Drive :=
  { key := key
    owner := owner
    rootHash := .zero 32
    size := size
    usedSize := ⟨0⟩
    metaFilesSize := ⟨0⟩
    replicatorCount := replicatorCount
    active := []
    completed := [] }

------------------------------------------------------------
-- Looking Up Modifications
------------------------------------------------------------

/- The active modification of an id. -/
def findActive?
    (drive : Drive)
    (id : Digest) : Option Modification :=
  drive.active.find? (·.id == id)

/- The completed modification of an id. -/
def findCompleted?
    (drive : Drive)
    (id : Digest) : Option CompletedModification :=
  drive.completed.find? (·.id == id)

/- Whether the modification of an id has been completed. -/
def isCompleted
    (drive : Drive)
    (id : Digest) : Bool :=
  drive.completed.any (·.id == id)

------------------------------------------------------------
-- Changing Modifications
------------------------------------------------------------

/- Append an active modification. -/
def add
    (drive : Drive)
    (modification : Modification) : Except ModelError Drive :=
  if drive.isCompleted modification.id then
    .error (.alreadyCompleted modification.id .active)
  else if drive.active.any (·.id == modification.id) then
    .error (.duplicateModification modification.id)
  else
    .ok { drive with
      active := drive.active ++ [modification] }

/- Append active modifications one after the other. -/
def addAll
    (drive : Drive)
    (modifications : List Modification) :
    Except ModelError Drive :=
  modifications.foldlM add drive

/-
  Move an active modification to the end of the completed
  list.  The other active ones keep their order.
-/
def complete
    (drive : Drive)
    (id : Digest)
    (outcome : ModificationOutcome) :
    Except ModelError Drive :=
  match drive.findActive? id with
  | some modification =>
      .ok { drive with
        active := drive.active.eraseP (·.id == id)
        completed :=
          drive.completed ++ [⟨modification, outcome⟩] }
  | none =>
      if drive.isCompleted id then
        .error (.alreadyCompleted id .completed)
      else
        .error (.modificationNotFound id)

/- The drive with the given lists, if they are consistent. -/
def withModifications
    (drive : Drive)
    (active : List Modification)
    (completed : List CompletedModification) :
    Except ModelError Drive :=
  addAll
    { drive with
      active := []
      completed := completed }
    active

------------------------------------------------------------
-- Sizes
------------------------------------------------------------

/- What neither content nor metadata uses. -/
def freeSize
    (drive : Drive) : StorageSize :=
  (drive.size.saturatingSub drive.usedSize).saturatingSub
    drive.metaFilesSize

end Drive

end DriveMarket
