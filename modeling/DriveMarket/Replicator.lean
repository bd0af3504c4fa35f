import DriveMarket.Crypto.Bls12381.Encoding
import DriveMarket.ModelError
import DriveMarket.Ordered.Map
import DriveMarket.Quantity

/-
  Replicators: nodes that pledge capacity and serve drives.

  Each served drive has an index that tells the order of
  joining.  A node of an early version has no BLS key.

  Key definitions include:
    * `DriveInfo`
    * `Replicator`
    * `Replicator.nextIndex`
    * `Replicator.addDrive`
    * `Replicator.joinDrive`
    * `Replicator.removeDrive`
    * `Replicator.approve`
-/

namespace DriveMarket

------------------------------------------------------------
-- Served Drives
------------------------------------------------------------

/-
  What a replicator keeps about a drive: the last modification
  it approved, which counts only if marked valid, the download
  work it owed on joining, and the order of joining.
-/
structure DriveInfo where
  lastApprovedId : Digest
  lastApprovedValid : Bool
  initialDownloadWork : UInt64
  index : UInt32
deriving DecidableEq

namespace DriveInfo

/- What is kept about a drive that was just joined. -/
def joined
    (index : UInt32)
    (work : UInt64) : DriveInfo :=
  { lastApprovedId := .zero 32
    lastApprovedValid := false
    initialDownloadWork := work
    index := index }

/- Note an approved modification. -/
def approve
    (info : DriveInfo)
    (id : Digest) : DriveInfo :=
  { info with
    lastApprovedId := id
    lastApprovedValid := true }

/- The last approved modification, if any. -/
def lastApproved?
    (info : DriveInfo) : Option Digest :=
  if info.lastApprovedValid then
    some info.lastApprovedId
  else
    none

end DriveInfo

------------------------------------------------------------
-- Replicators
------------------------------------------------------------

/- A node with the drives that it serves. -/
structure Replicator where
  key : PublicKey
  version : Int32
  capacity : Amount
  blsKey : Option BlsPublicKey
  drives : OrderedMap PublicKey DriveInfo
deriving DecidableEq

namespace Replicator

/- A node that serves no drive. -/
def idle
    (key : PublicKey)
    (version : Int32)
    (capacity : Amount)
    (blsKey : Option BlsPublicKey) : Replicator :=
  { key := key
    version := version
    capacity := capacity
    blsKey := blsKey
    drives := .empty }

/- The largest index there is. -/
def topIndex : Nat :=
  0xffffffff

/-
  The index for the next drive: one above the largest in use,
  but no larger than the largest there is.
-/
def nextIndex
    (replicator : Replicator) : UInt32 :=
  UInt32.ofNat
    (replicator.drives.values.foldl
      (fun next info =>
        max next (min (info.index.toNat + 1) topIndex))
      0)

/- Start to serve a drive. -/
def addDrive
    (replicator : Replicator)
    (drive : PublicKey)
    (info : DriveInfo) : Except ModelError Replicator :=
  if replicator.drives.contains drive then
    .error (.duplicateDrive drive)
  else
    .ok { replicator with
      drives := replicator.drives.insert drive info }

/- Start to serve a drive at the next index, and tell it. -/
def joinDrive
    (replicator : Replicator)
    (drive : PublicKey)
    (work : UInt64) :
    Except ModelError (UInt32 × Replicator) := do
  let index := replicator.nextIndex
  let joined ← replicator.addDrive drive (.joined index work)
  return (index, joined)

/- Stop serving a drive. -/
def removeDrive
    (replicator : Replicator)
    (drive : PublicKey) : Replicator :=
  { replicator with
    drives := replicator.drives.erase drive }

/- What is kept about a drive, if it is served. -/
def info?
    (replicator : Replicator)
    (drive : PublicKey) : Option DriveInfo :=
  replicator.drives.get? drive

/- Note an approved modification of a drive, if it is served. -/
def approve
    (replicator : Replicator)
    (drive : PublicKey)
    (id : Digest) : Replicator :=
  match replicator.info? drive with
  | some info =>
      { replicator with
        drives :=
          replicator.drives.insert drive (info.approve id) }
  | none => replicator

end Replicator

end DriveMarket
