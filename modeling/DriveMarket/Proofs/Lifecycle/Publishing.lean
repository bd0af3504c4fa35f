import DriveMarket.Lifecycle.Publishing
import DriveMarket.Proofs.Lifecycle.Steps
import Mathlib.Data.List.Forall2

/-
  What subscribers of a tracker learn.

  Whichever way an event reaches a tracker, it changes nothing
  at all or it is one step of the tracker, and the snapshot
  that it returns is published once.  So what has been
  published are the accepted steps, in order, and numbered
  without gaps.

  Key definitions include:
    * `DriveSnapshot.Shows`
    * `Report`
    * `PublishingTracker.deliver`
    * `PublishingTracker.deliverAll`
    * `PublishingTracker.Faithful`
    * `PublishingTracker.history`
    * `PublishingTracker.standings`

  Correctness is proven by:
    * `PublishingTracker.faithful_deliver`
    * `PublishingTracker.history_deliverAll`
    * `PublishingTracker.shows_deliverAll`
    * `PublishingTracker.sequence_deliverAll`
    * `PublishingTracker.deliverAll_published`
-/

namespace DriveMarket

/-
  A snapshot shows a tracker: everything in it is as the
  tracker knows the drive.
-/
structure DriveSnapshot.Shows
    (snapshot : DriveSnapshot)
    (tracker : Tracker) : Prop where
  drive_eq : snapshot.drive = tracker.drive.key
  sequence_eq : snapshot.sequence = tracker.sequence
  status_eq : snapshot.status = tracker.status
  verification_eq :
    snapshot.verification = tracker.verification
  rootHash_eq : snapshot.rootHash = tracker.drive.rootHash
  usedSize_eq : snapshot.usedSize = tracker.drive.usedSize
  metaFilesSize_eq :
    snapshot.metaFilesSize = tracker.drive.metaFilesSize
  replicators_eq :
    snapshot.replicators = tracker.replicators.keys
  active_eq :
    snapshot.active =
      tracker.drive.active.map fun modification =>
        ⟨modification.id, modification.uploadSize, none⟩
  completed_eq :
    snapshot.completed =
      tracker.drive.completed.map fun completed =>
        ⟨completed.modification.id,
          completed.modification.uploadSize,
          some completed.outcome⟩

theorem Tracker.snapshot_shows
    (tracker : Tracker) : tracker.snapshot.Shows tracker where
  drive_eq := rfl
  sequence_eq := rfl
  status_eq := rfl
  verification_eq := rfl
  rootHash_eq := rfl
  usedSize_eq := rfl
  metaFilesSize_eq := rfl
  replicators_eq := rfl
  active_eq := rfl
  completed_eq := rfl

/- What reaches a tracker, and in which way. -/
inductive Report where
  | event (event : DriveEvent)
  | eventFor (drive : PublicKey) (event : DriveEvent)
  | transaction (tx : Transaction) (hash : Digest)
  | verificationEnd
      (tx : Transaction)
      (hash : Digest)
      (failed : List PublicKey)

namespace PublishingTracker

------------------------------------------------------------
-- One Report
------------------------------------------------------------

/- Hand a report to a tracker. -/
def deliver
    (publishing : PublishingTracker)
    (report : Report) : Delivery × PublishingTracker :=
  match report with
  | .event event => publishing.apply event
  | .eventFor drive event => publishing.applyFor drive event
  | .transaction tx hash =>
      publishing.applyTransaction tx hash
  | .verificationEnd tx hash failed =>
      publishing.applyVerificationEnd tx hash failed

/- The tracker once it has taken a step and published it. -/
def stepTo
    (publishing : PublishingTracker)
    (after : Tracker) : PublishingTracker :=
  { tracker := after
    bus := publishing.bus.map (·.publish after.snapshot) }

/- Everything that was published on a tracker's bus. -/
def history
    (publishing : PublishingTracker) :
    Option (List DriveSnapshot) :=
  publishing.bus.map (·.ring.events.toList)

theorem history_stepTo
    (publishing : PublishingTracker)
    (after : Tracker) :
    (publishing.stepTo after).history =
      publishing.history.map (· ++ [after.snapshot]) := by
  rcases publishing with ⟨tracker, _ | bus⟩
  · rfl
  · simp [history, stepTo, Bus.publish, Ring.push]

/-
  How a delivery may end: nothing has changed, or the tracker
  has taken one step and published where it is now.
-/
inductive Faithful
    (before : PublishingTracker) :
    Delivery × PublishingTracker → Prop where
  | rejected
      (cause : LifecycleError) :
      Faithful before (.error cause, before)
  | passed :
      Faithful before (.ok none, before)
  | step
      {after : Tracker}
      (hSequence :
        after.sequence = before.tracker.sequence + 1) :
      Faithful before
        (.ok (some after.snapshot), before.stepTo after)

theorem faithful_apply
    (publishing : PublishingTracker)
    (event : DriveEvent) :
    publishing.Faithful (publishing.apply event) := by
  unfold apply
  rcases publishing.tracker.apply_cases event with
    ⟨cause, hRejected⟩ | ⟨after, hReacts, hAccepted⟩
  · rw [hRejected]
    exact .rejected cause
  · rw [hAccepted]
    apply Faithful.step
    rw [← hReacts.sequence_eq]
    rfl

/- Every way to a tracker ends so. -/
theorem faithful_deliver
    (publishing : PublishingTracker)
    (report : Report) :
    publishing.Faithful (publishing.deliver report) := by
  have hApply := publishing.faithful_apply
  cases report with
  | event event => exact hApply event
  | eventFor drive event =>
      change publishing.Faithful
        (publishing.applyFor drive event)
      unfold applyFor
      split
      · exact hApply event
      · exact .rejected _
  | transaction tx hash =>
      change publishing.Faithful
        (publishing.applyTransaction tx hash)
      unfold applyTransaction
      split
      · split
        · exact hApply _
        · exact .passed
      · exact .passed
  | verificationEnd tx hash failed =>
      change publishing.Faithful
        (publishing.applyVerificationEnd tx hash failed)
      unfold applyVerificationEnd
      split
      · split
        · exact hApply _
        · exact .passed
      · exact .passed

------------------------------------------------------------
-- Many Reports
------------------------------------------------------------

/- Hand over reports: how each ended, and the tracker then. -/
def deliverAll :
    List Report →
    PublishingTracker →
    List Delivery × PublishingTracker
  | [], publishing => ([], publishing)
  | report :: rest, publishing =>
      let (delivery, publishing) := publishing.deliver report
      let (deliveries, publishing) :=
        deliverAll rest publishing
      (delivery :: deliveries, publishing)

theorem deliverAll_cons
    (report : Report)
    (rest : List Report)
    (publishing : PublishingTracker) :
    publishing.deliverAll (report :: rest) =
      ((publishing.deliver report).1 ::
          ((publishing.deliver report).2.deliverAll rest).1,
        ((publishing.deliver report).2.deliverAll rest).2) :=
  rfl

/- The trackers after the reports that counted, in order. -/
def standings :
    List Report →
    PublishingTracker →
    List Tracker
  | [], _ => []
  | report :: rest, publishing =>
      match publishing.deliver report with
      | (.ok (some _), after) =>
          after.tracker :: standings rest after
      | (_, after) => standings rest after

/- The snapshots of the accepted events, in order. -/
def accepted
    (deliveries : List Delivery) : List DriveSnapshot :=
  deliveries.filterMap fun
    | .error _ => none
    | .ok snapshot => snapshot

theorem accepted_cons_ok
    (snapshot : DriveSnapshot)
    (deliveries : List Delivery) :
    accepted (.ok (some snapshot) :: deliveries) =
      snapshot :: accepted deliveries :=
  rfl

/- What is published is what is accepted. -/
theorem history_deliverAll
    (reports : List Report)
    (publishing : PublishingTracker) :
    (publishing.deliverAll reports).2.history =
      publishing.history.map
        (· ++ accepted
          (publishing.deliverAll reports).1) := by
  induction reports generalizing publishing with
  | nil => simp [deliverAll, accepted]
  | cons report rest ih =>
      have hFaithful := publishing.faithful_deliver report
      rw [deliverAll_cons]
      generalize publishing.deliver report = ended
        at hFaithful ⊢
      cases hFaithful with
      | rejected cause => exact ih publishing
      | passed => exact ih publishing
      | @step after hSequence =>
          rw [ih, history_stepTo, accepted_cons_ok,
            Option.map_map]
          congr 1
          funext published
          exact List.append_assoc _ _ _

/- Each shows the tracker after the event it is for. -/
theorem shows_deliverAll
    (reports : List Report)
    (publishing : PublishingTracker) :
    List.Forall₂ DriveSnapshot.Shows
      (accepted (publishing.deliverAll reports).1)
      (publishing.standings reports) := by
  induction reports generalizing publishing with
  | nil => exact .nil
  | cons report rest ih =>
      have hFaithful := publishing.faithful_deliver report
      rw [deliverAll_cons, standings]
      generalize publishing.deliver report = ended
        at hFaithful ⊢
      cases hFaithful with
      | rejected cause => exact ih publishing
      | passed => exact ih publishing
      | @step after hSequence =>
          exact .cons after.snapshot_shows
            (ih (publishing.stepTo after))

/- Its numbers follow on that of the tracker. -/
theorem sequence_deliverAll
    {reports : List Report}
    {publishing : PublishingTracker}
    {start : Nat}
    {snapshots : List DriveSnapshot}
    (hStart : publishing.tracker.sequence.toNat = start)
    (hAccepted :
      accepted (publishing.deliverAll reports).1 = snapshots)
    (hBound : start + snapshots.length < 0x10000000000000000) :
    (publishing.deliverAll
        reports).2.tracker.sequence.toNat =
      start + snapshots.length ∧
    snapshots.map (·.sequence.toNat) =
      List.range' (start + 1) snapshots.length := by
  induction reports
      generalizing publishing start snapshots with
  | nil =>
      subst hAccepted
      exact ⟨hStart, rfl⟩
  | cons report rest ih =>
      have hFaithful := publishing.faithful_deliver report
      rw [deliverAll_cons] at hAccepted ⊢
      generalize publishing.deliver report = ended
        at hFaithful hAccepted ⊢
      cases hFaithful with
      | rejected cause => exact ih hStart hAccepted hBound
      | passed => exact ih hStart hAccepted hBound
      | @step after hSequence =>
          dsimp only at hAccepted ⊢
          rw [accepted_cons_ok] at hAccepted
          subst hAccepted
          rw [List.length_cons] at hBound ⊢
          have hNext : after.sequence.toNat = start + 1 := by
            rw [hSequence, UInt64.toNat_add,
              UInt64.toNat_one, hStart]
            exact Nat.mod_eq_of_lt (by omega)
          rcases @ih (publishing.stepTo after) _ _ hNext rfl
              (by omega) with
            ⟨hLast, hNumbers⟩
          refine ⟨hLast.trans (by omega), ?_⟩
          rw [List.map_cons, hNumbers, List.range'_succ,
            ← hNext]
          rfl

------------------------------------------------------------
-- Published Steps
------------------------------------------------------------

/- Closing a drive never stops halfway. -/
theorem apply_closureFinalized
    {publishing : PublishingTracker}
    (hClosing : publishing.tracker.status = .closing) :
    ∃ after,
      publishing.apply .closureFinalized =
        (.ok (some after.snapshot),
          publishing.stepTo after) ∧
      after.status = .closed ∧
      after.drive = publishing.tracker.drive.cancelled := by
  unfold apply Tracker.apply
  rw [Tracker.react_closureFinalized hClosing]
  exact ⟨_, rfl, rfl, rfl⟩

/-
  A report that is rejected or passed over leaves tracker and
  bus as they were.  Any other one counts, returns a snapshot
  that shows the tracker after it, and publishes that once.
  Over many reports, what has been published in addition shows
  the tracker after each accepted one, in order and with
  consecutive numbers.  When a closing drive is closed, all
  its modifications are cancelled.
-/
theorem deliverAll_published
    (publishing : PublishingTracker)
    (report : Report)
    (reports : List Report) :
    ((∃ cause, (publishing.deliver report).1 = .error cause) ∨
        (publishing.deliver report).1 = .ok none →
      (publishing.deliver report).2 = publishing) ∧
    (∀ snapshot after,
      publishing.deliver report =
        (.ok (some snapshot), after) →
      after.tracker.sequence =
        publishing.tracker.sequence + 1 ∧
      snapshot.Shows after.tracker ∧
      after.tracker.snapshot = snapshot ∧
      after.bus = publishing.bus.map (·.publish snapshot) ∧
      after.history =
        publishing.history.map (· ++ [snapshot])) ∧
    (∀ deliveries last,
      publishing.deliverAll reports = (deliveries, last) →
      last.history =
        publishing.history.map (· ++ accepted deliveries) ∧
      List.Forall₂ DriveSnapshot.Shows (accepted deliveries)
        (publishing.standings reports) ∧
      (publishing.tracker.sequence.toNat +
          (accepted deliveries).length < 0x10000000000000000 →
        last.tracker.sequence.toNat =
          publishing.tracker.sequence.toNat +
            (accepted deliveries).length ∧
        (accepted deliveries).map (·.sequence.toNat) =
          List.range'
            (publishing.tracker.sequence.toNat + 1)
            (accepted deliveries).length)) ∧
    (publishing.tracker.status = .closing →
      ∃ after,
        publishing.apply .closureFinalized =
          (.ok (some after.snapshot),
            publishing.stepTo after) ∧
        after.status = .closed ∧
        after.drive = publishing.tracker.drive.cancelled) := by
  have hFaithful := publishing.faithful_deliver report
  refine ⟨?_, ?_, ?_, apply_closureFinalized⟩
  · intro hNothing
    generalize publishing.deliver report = ended
      at hFaithful hNothing ⊢
    cases hFaithful with
    | rejected cause => rfl
    | passed => rfl
    | step hSequence =>
        rcases hNothing with ⟨cause, hError⟩ | hNone
        · cases hError
        · cases hNone
  · intro snapshot after hAccepted
    rw [hAccepted] at hFaithful
    cases hFaithful with
    | @step after hSequence =>
        exact ⟨hSequence, after.snapshot_shows, rfl, rfl,
          publishing.history_stepTo after⟩
  · intro deliveries last hRun
    have hHistory := publishing.history_deliverAll reports
    have hShows := shows_deliverAll reports publishing
    have hSequence :=
      @sequence_deliverAll reports publishing _ _ rfl rfl
    rw [hRun] at hHistory hShows hSequence
    exact ⟨hHistory, hShows, hSequence⟩

/-
  A closing drive with two active modifications: one is still
  cancelled on its own, the other when the drive is closed.
  Two of the five reports count, and what is published for the
  last of them shows a closed drive with both cancelled.
-/
theorem deliverAll_published_closing :
    let other : PublicKey :=
      ⟨List.replicate 32 1, List.length_replicate⟩
    let first : Modification :=
      ⟨.zero 32, .zero 32, .zero 32, ⟨5⟩⟩
    let second : Modification :=
      ⟨other, .zero 32, .zero 32, ⟨7⟩⟩
    let drive : Drive := {
      Drive.prepared (.zero 32) other ⟨100⟩ 1 with
      active := [first, second] }
    let publishing : PublishingTracker := {
      tracker :=
        .resume drive .closing .unavailable [other]
      bus := Bus.ofCapacity? 4 }
    let reports : List Report :=
      [.event .closureRequested,
        .eventFor other .closureFinalized,
        .eventFor (.zero 32) (.modificationCancelled other),
        .event .closureFinalized,
        .event .closureFinalized]
    let ended := publishing.deliverAll reports
    (accepted ended.1).length = 2 ∧
    ended.2.history = some (accepted ended.1) ∧
    (accepted ended.1).map (·.sequence.toNat) = [1, 2] ∧
    List.Forall₂ DriveSnapshot.Shows (accepted ended.1)
      (publishing.standings reports) ∧
    (accepted ended.1).map (·.status) = [.closing, .closed] ∧
    (accepted ended.1).map (·.active) =
      [[⟨.zero 32, ⟨5⟩, none⟩], []] ∧
    publishing.tracker.status = .closing ∧
    (publishing.apply .closureFinalized).2.tracker.drive =
      drive.cancelled := by
  intro other first second drive publishing reports ended
  have hLength : (accepted ended.1).length = 2 := by
    decide +kernel
  have hStart : publishing.tracker.sequence.toNat = 0 := rfl
  rcases publishing.deliverAll_published
      (.event .closureFinalized) reports with
    ⟨-, -, hRun, hClosure⟩
  rcases hRun ended.1 ended.2 rfl with
    ⟨hHistory, hShows, hNumbers⟩
  refine ⟨hLength, hHistory, ?_, hShows, ?_, ?_, rfl, ?_⟩
  · rw [(hNumbers (by omega)).2, hStart, hLength]
    rfl
  · decide +kernel
  · decide +kernel
  · rcases hClosure rfl with ⟨after, hApply, -, hDrive⟩
    rw [hApply]
    exact hDrive

end PublishingTracker

end DriveMarket
