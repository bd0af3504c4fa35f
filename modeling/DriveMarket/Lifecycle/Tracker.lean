import DriveMarket.Lifecycle.Event
import DriveMarket.Lifecycle.Snapshot
import DriveMarket.Ordered.Map

/-
  Following one drive through the events that the ledger
  reports.

  An event is either rejected or accepted; an accepted one
  raises the sequence number by one.

  Key definitions include:
    * `LifecycleError`
    * `Tracker`
    * `Tracker.start`
    * `Tracker.resume`
    * `Tracker.snapshot`
    * `Tracker.react`
    * `Tracker.apply`
-/

namespace DriveMarket

------------------------------------------------------------
-- Rejections
------------------------------------------------------------

/- Why an event is rejected. -/
inductive LifecycleError where
  | invalidTransition
      (drive : PublicKey)
      (status : DriveStatus)
      (event : String)
  | duplicateReplicator (replicator : PublicKey)
  | triggerMismatch (expected actual : Digest)
  | wrongDrive (drive : PublicKey)
  | model (cause : ModelError)
deriving DecidableEq

/- The wording of a rejection. -/
def LifecycleError.message : LifecycleError → String
  | .invalidTransition drive status event =>
      s!"Invalid state transition for drive {drive.hex}: " ++
        s!"{event} in {status.name}"
  | .duplicateReplicator replicator =>
      s!"Duplicate replicator: {replicator.hex}"
  | .triggerMismatch expected actual =>
      s!"Verification trigger mismatch: expected " ++
        s!"{expected.hex}, got {actual.hex}"
  | .wrongDrive drive =>
      s!"Event for another drive: {drive.hex}"
  | .model cause => "Model error: " ++ cause.message

/- The code of a rejection. -/
def LifecycleError.code : LifecycleError → String
  | .invalidTransition .. => "InvalidStateTransition"
  | .duplicateReplicator _ => "DuplicateReplicator"
  | .triggerMismatch .. => "TriggerMismatch"
  | .wrongDrive _ => "WrongDrive"
  | .model cause => "Model." ++ cause.code

instance : Refusal LifecycleError :=
  ⟨LifecycleError.code, LifecycleError.message⟩

------------------------------------------------------------
-- Trackers
------------------------------------------------------------

/-
  What is known of a drive.  The trigger is that of the
  running verification round, if it was seen to start.
-/
structure Tracker where
  drive : Drive
  status : DriveStatus
  verification : VerificationFlags
  replicators : OrderedSet PublicKey
  trigger : Option Digest
  sequence : UInt64
deriving DecidableEq

namespace Tracker

/- Follow a drive from a status that the ledger reported. -/
def resume
    (drive : Drive)
    (status : DriveStatus)
    (verification : VerificationFlags)
    (replicators : List PublicKey) : Tracker :=
  { drive := drive
    status := status
    verification := verification
    replicators := .ofList replicators
    trigger := none
    sequence := 0 }

/- Follow a drive that was just prepared. -/
def start
    (drive : Drive) : Tracker :=
  resume drive .preparing .idle []

/- The drive as it is known now. -/
def snapshot
    (tracker : Tracker) : DriveSnapshot :=
  { drive := tracker.drive.key
    sequence := tracker.sequence
    status := tracker.status
    verification := tracker.verification
    rootHash := tracker.drive.rootHash
    usedSize := tracker.drive.usedSize
    metaFilesSize := tracker.drive.metaFilesSize
    replicators := tracker.replicators.keys
    active := tracker.drive.active.map (·.summary)
    completed := tracker.drive.completed.map (·.summary) }

/- The rejection of an event that the status does not allow. -/
def rejection
    (tracker : Tracker)
    (event : DriveEvent) : LifecycleError :=
  .invalidTransition tracker.drive.key tracker.status
    event.name

------------------------------------------------------------
-- Reactions
------------------------------------------------------------

/-
  Cancel modifications one after the other, as far as that
  goes: how it ended, and the drive it ended with.
-/
def cancelAll :
    (ids : List Digest) →
    (drive : Drive) →
    Except ModelError Unit × Drive
  | [], drive => (.ok (), drive)
  | id :: ids, drive =>
      match drive.complete id .cancelled with
      | .error cause => (.error cause, drive)
      | .ok drive => cancelAll ids drive

/-
  The effect of an event on everything but the sequence
  number: whether it is accepted, and what is known of the
  drive afterwards.
-/
def react
    (tracker : Tracker)
    (event : DriveEvent) :
    Except LifecycleError Unit × Tracker :=
  let reject := (.error (tracker.rejection event), tracker)
  match event with
  | .replicatorJoined replicator =>
      if tracker.status = .closing ∨
          tracker.status = .closed then
        reject
      else if tracker.replicators.contains replicator then
        (.error (.duplicateReplicator replicator), tracker)
      else
        let replicators := tracker.replicators.add replicator
        let enough :=
          tracker.drive.replicatorCount.toNat ≤
            replicators.size
        (.ok (), { tracker with
          replicators := replicators
          status :=
            if tracker.status = .preparing ∧ enough then
              .active
            else
              tracker.status })
  | .modificationSubmitted modification =>
      if tracker.status.acceptsModifications then
        match tracker.drive.add modification with
        | .error cause => (.error (.model cause), tracker)
        | .ok drive =>
            (.ok (), { tracker with drive := drive })
      else
        reject
  | .modificationApproved id rootHash used metaFiles =>
      if tracker.status.resolvesModifications then
        match tracker.drive.complete id .succeeded with
        | .error cause => (.error (.model cause), tracker)
        | .ok drive =>
            (.ok (), { tracker with
              drive := { drive with
                rootHash := rootHash
                usedSize := used
                metaFilesSize := metaFiles } })
      else
        reject
  | .modificationCancelled id =>
      if tracker.status.resolvesModifications then
        match tracker.drive.complete id .cancelled with
        | .error cause => (.error (.model cause), tracker)
        | .ok drive =>
            (.ok (), { tracker with drive := drive })
      else
        reject
  | .verificationStarted trigger =>
      if tracker.status = .active ∧
          tracker.verification.available then
        (.ok (), { tracker with
          status := .verificationPending
          verification := .running
          trigger := some trigger })
      else
        reject
  | .verificationEnded trigger failed =>
      if tracker.status = .verificationPending then
        let expected := tracker.trigger.getD trigger
        if expected = trigger then
          (.ok (), { tracker with
            replicators :=
              failed.foldl (·.erase ·) tracker.replicators
            status := .active
            verification := .idle
            trigger := none })
        else
          (.error (.triggerMismatch expected trigger), tracker)
      else
        reject
  | .closureRequested =>
      if tracker.status = .active then
        (.ok (), { tracker with
          status := .closing
          verification := .unavailable })
      else
        reject
  | .closureFinalized =>
      if tracker.status = .closing then
        let (result, drive) :=
          cancelAll (tracker.drive.active.map (·.id))
            tracker.drive
        match result with
        | .error cause =>
            (.error (.model cause),
              { tracker with drive := drive })
        | .ok () =>
            (.ok (), { tracker with
              drive := drive
              status := .closed })
      else
        reject

/- Whether an event is accepted, and the tracker after it. -/
def apply
    (tracker : Tracker)
    (event : DriveEvent) :
    Except LifecycleError DriveSnapshot × Tracker :=
  match tracker.react event with
  | (.error cause, after) => (.error cause, after)
  | (.ok (), after) =>
      let counted :=
        { after with sequence := after.sequence + 1 }
      (.ok counted.snapshot, counted)

end Tracker

end DriveMarket
