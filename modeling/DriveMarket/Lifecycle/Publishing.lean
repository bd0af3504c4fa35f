import DriveMarket.Bus.Basic
import DriveMarket.Lifecycle.Tracker

/-
  A tracker that publishes.

  Events reach a tracker on their own, under the key of a
  drive, or implied by a transaction.  After every accepted
  event the tracker's snapshot is published on its bus, if it
  has one.

  Key definitions include:
    * `PublishingTracker`
    * `PublishingTracker.apply`
    * `PublishingTracker.applyFor`
    * `PublishingTracker.applyTransaction`
    * `PublishingTracker.applyVerificationEnd`
-/

namespace DriveMarket

/- A tracker with the bus it publishes on. -/
structure PublishingTracker where
  tracker : Tracker
  bus : Option (Bus DriveSnapshot)
deriving DecidableEq

/-
  How a delivery ends: a snapshot of the accepted event, none
  if there was nothing to apply, or a rejection.
-/
abbrev Delivery :=
  Except LifecycleError (Option DriveSnapshot)

namespace PublishingTracker

/- Apply one event. -/
def apply
    (publishing : PublishingTracker)
    (event : DriveEvent) : Delivery × PublishingTracker :=
  match publishing.tracker.apply event with
  | (.error cause, tracker) =>
      (.error cause, { publishing with tracker := tracker })
  | (.ok snapshot, tracker) =>
      (.ok (some snapshot),
        { tracker := tracker
          bus := publishing.bus.map (·.publish snapshot) })

/- Apply an event that is about the drive of a key. -/
def applyFor
    (publishing : PublishingTracker)
    (drive : PublicKey)
    (event : DriveEvent) : Delivery × PublishingTracker :=
  if drive = publishing.tracker.drive.key then
    publishing.apply event
  else
    (.error (.wrongDrive drive), publishing)

/-
  Apply an accepted transaction.  Transactions that are not
  about the tracked drive are passed over.
-/
def applyTransaction
    (publishing : PublishingTracker)
    (tx : Transaction)
    (hash : Digest) : Delivery × PublishingTracker :=
  match DriveEvent.ofTransaction? tx hash with
  | some (drive, event) =>
      if drive = publishing.tracker.drive.key then
        publishing.apply event
      else
        (.ok none, publishing)
  | none => (.ok none, publishing)

/-
  Apply an accepted transaction that ends a verification
  round, with the replicators that the ledger removed.  All
  other transactions are passed over.
-/
def applyVerificationEnd
    (publishing : PublishingTracker)
    (tx : Transaction)
    (hash : Digest)
    (failed : List PublicKey) :
    Delivery × PublishingTracker :=
  match DriveEvent.ofTransaction? tx hash with
  | some (drive, .verificationEnded trigger _) =>
      if drive = publishing.tracker.drive.key then
        publishing.apply (.verificationEnded trigger failed)
      else
        (.ok none, publishing)
  | _ => (.ok none, publishing)

end PublishingTracker

end DriveMarket
