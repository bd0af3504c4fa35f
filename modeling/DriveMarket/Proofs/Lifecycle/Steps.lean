import DriveMarket.Lifecycle.Tracker

/-
  What one event does to a tracker.

  An event that is rejected leaves no trace.  One that is
  accepted does what `Tracker.Reacts` says about it, and the
  sequence number grows by one.

  Key definitions include:
    * `Drive.cancelled`
    * `Tracker.Reacts`
    * `Tracker.counted`

  Correctness is proven by:
    * `Tracker.cancelAll_active`
    * `Tracker.react_closureFinalized`
    * `Tracker.react_cases`
    * `Tracker.apply_cases`
-/

namespace DriveMarket

------------------------------------------------------------
-- Cancelling Modifications
------------------------------------------------------------

/- A drive whose active modifications were all cancelled. -/
def Drive.cancelled
    (drive : Drive) : Drive :=
  { drive with
    active := []
    completed :=
      drive.completed ++ drive.active.map (⟨·, .cancelled⟩) }

/- The first active modification can always be completed. -/
theorem Drive.complete_first
    {drive : Drive}
    {modification : Modification}
    {rest : List Modification}
    (hActive : drive.active = modification :: rest)
    (outcome : ModificationOutcome) :
    drive.complete modification.id outcome =
      .ok { drive with
        active := rest
        completed :=
          drive.completed ++ [⟨modification, outcome⟩] } := by
  have hFind :
      drive.findActive? modification.id =
        some modification := by
    unfold findActive?
    rw [hActive, List.find?_cons_of_pos (by simp)]
  unfold complete
  rw [hFind, hActive, List.eraseP_cons_of_pos (by simp)]

namespace Tracker

/-
  Cancelling every active modification never fails, whatever
  ids they have: each one is the first when its turn comes.
-/
theorem cancelAll_active
    (drive : Drive) :
    cancelAll (drive.active.map (·.id)) drive =
      (.ok (), drive.cancelled) := by
  induction hActive : drive.active generalizing drive with
  | nil =>
      rcases drive with ⟨_, _, _, _, _, _, _, active, _⟩
      cases hActive
      simp [cancelAll, Drive.cancelled]
  | cons modification rest ih =>
      rw [List.map_cons, cancelAll,
        Drive.complete_first hActive]
      have hRest := ih
        { drive with
          active := rest
          completed :=
            drive.completed ++ [⟨modification, .cancelled⟩] }
        rfl
      simp only [hRest]
      simp [Drive.cancelled, hActive]

/- So a closing drive can always be closed. -/
theorem react_closureFinalized
    {tracker : Tracker}
    (hClosing : tracker.status = .closing) :
    tracker.react .closureFinalized =
      (.ok (), {
        tracker with
        drive := tracker.drive.cancelled
        status := .closed }) := by
  unfold react
  simp [hClosing, cancelAll_active]

------------------------------------------------------------
-- Accepted Events
------------------------------------------------------------

/-
  What is known of a drive after an event that is accepted,
  and when it is.
-/
inductive Reacts
    (tracker : Tracker) : DriveEvent → Tracker → Prop where
  | joined
      {replicator : PublicKey}
      (hClosing : tracker.status ≠ .closing)
      (hClosed : tracker.status ≠ .closed)
      (hNew : ¬ tracker.replicators.contains replicator) :
      Reacts tracker (.replicatorJoined replicator)
        { tracker with
          replicators := tracker.replicators.add replicator
          status :=
            if tracker.status = .preparing ∧
                tracker.drive.replicatorCount.toNat ≤
                  (tracker.replicators.add replicator).size
            then .active
            else tracker.status }
  | submitted
      {modification : Modification}
      {drive : Drive}
      (hStatus : tracker.status.acceptsModifications)
      (hAdd : tracker.drive.add modification = .ok drive) :
      Reacts tracker (.modificationSubmitted modification)
        { tracker with drive := drive }
  | approved
      {id rootHash : Digest}
      {used metaFiles : StorageSize}
      {drive : Drive}
      (hStatus : tracker.status.resolvesModifications)
      (hComplete :
        tracker.drive.complete id .succeeded = .ok drive) :
      Reacts tracker
        (.modificationApproved id rootHash used metaFiles)
        { tracker with
          drive := { drive with
            rootHash := rootHash
            usedSize := used
            metaFilesSize := metaFiles } }
  | cancelled
      {id : Digest}
      {drive : Drive}
      (hStatus : tracker.status.resolvesModifications)
      (hComplete :
        tracker.drive.complete id .cancelled = .ok drive) :
      Reacts tracker (.modificationCancelled id)
        { tracker with drive := drive }
  | started
      {trigger : Digest}
      (hStatus : tracker.status = .active)
      (hAvailable : tracker.verification.available) :
      Reacts tracker (.verificationStarted trigger)
        { tracker with
          status := .verificationPending
          verification := .running
          trigger := some trigger }
  | ended
      {trigger : Digest}
      {failed : List PublicKey}
      (hStatus : tracker.status = .verificationPending)
      (hTrigger :
        ∀ expected ∈ tracker.trigger, expected = trigger) :
      Reacts tracker (.verificationEnded trigger failed)
        { tracker with
          replicators :=
            failed.foldl (·.erase ·) tracker.replicators
          status := .active
          verification := .idle
          trigger := none }
  | requested
      (hStatus : tracker.status = .active) :
      Reacts tracker .closureRequested
        { tracker with
          status := .closing
          verification := .unavailable }
  | finalized
      (hStatus : tracker.status = .closing) :
      Reacts tracker .closureFinalized
        { tracker with
          drive := tracker.drive.cancelled
          status := .closed }

/- An event is rejected without a trace, or accepted. -/
theorem react_cases
    (tracker : Tracker)
    (event : DriveEvent) :
    (∃ cause,
      tracker.react event = (.error cause, tracker)) ∨
    (∃ after,
      tracker.react event = (.ok (), after) ∧
        tracker.Reacts event after) := by
  unfold react
  cases event with
  | replicatorJoined replicator =>
      by_cases hOver :
          tracker.status = .closing ∨ tracker.status = .closed
      · left
        exact ⟨_, if_pos hOver⟩
      by_cases hHas : tracker.replicators.contains replicator
      · left
        exact ⟨_, (if_neg hOver).trans (if_pos hHas)⟩
      · right
        rw [not_or] at hOver
        refine ⟨_, ?_, .joined hOver.1 hOver.2 hHas⟩
        simp [hOver, hHas]
  | modificationSubmitted modification =>
      by_cases hStatus : tracker.status.acceptsModifications
      · cases hAdd : tracker.drive.add modification with
        | error cause =>
            left
            simp [hStatus, hAdd]
        | ok drive =>
            right
            refine ⟨_, ?_, .submitted hStatus hAdd⟩
            simp [hStatus, hAdd]
      · left
        exact ⟨_, if_neg hStatus⟩
  | modificationApproved id rootHash used metaFiles =>
      by_cases hStatus : tracker.status.resolvesModifications
      · cases hComplete :
            tracker.drive.complete id .succeeded with
        | error cause =>
            left
            simp [hStatus, hComplete]
        | ok drive =>
            right
            refine ⟨_, ?_, .approved hStatus hComplete⟩
            simp [hStatus, hComplete]
      · left
        exact ⟨_, if_neg hStatus⟩
  | modificationCancelled id =>
      by_cases hStatus : tracker.status.resolvesModifications
      · cases hComplete :
            tracker.drive.complete id .cancelled with
        | error cause =>
            left
            simp [hStatus, hComplete]
        | ok drive =>
            right
            refine ⟨_, ?_, .cancelled hStatus hComplete⟩
            simp [hStatus, hComplete]
      · left
        exact ⟨_, if_neg hStatus⟩
  | verificationStarted trigger =>
      by_cases hReady :
          tracker.status = .active ∧
            tracker.verification.available
      · right
        exact ⟨_, if_pos hReady,
          .started hReady.1 hReady.2⟩
      · left
        exact ⟨_, if_neg hReady⟩
  | verificationEnded trigger failed =>
      by_cases hStatus : tracker.status = .verificationPending
      · by_cases hTrigger :
            tracker.trigger.getD trigger = trigger
        · right
          refine ⟨_,
            (if_pos hStatus).trans (if_pos hTrigger),
            .ended hStatus ?_⟩
          intro expected hSome
          rw [Option.mem_def.mp hSome] at hTrigger
          exact hTrigger
        · left
          exact ⟨_,
            (if_pos hStatus).trans (if_neg hTrigger)⟩
      · left
        exact ⟨_, if_neg hStatus⟩
  | closureRequested =>
      by_cases hStatus : tracker.status = .active
      · right
        exact ⟨_, if_pos hStatus, .requested hStatus⟩
      · left
        exact ⟨_, if_neg hStatus⟩
  | closureFinalized =>
      by_cases hStatus : tracker.status = .closing
      · right
        exact ⟨_, react_closureFinalized hStatus,
          .finalized hStatus⟩
      · left
        exact ⟨_, if_neg hStatus⟩

/- Counting the accepted events is left to `apply`. -/
theorem Reacts.sequence_eq
    {tracker after : Tracker}
    {event : DriveEvent}
    (hReacts : tracker.Reacts event after) :
    after.sequence = tracker.sequence := by
  cases hReacts <;> rfl

/- The tracker with one more event accepted. -/
def counted
    (tracker : Tracker) : Tracker :=
  { tracker with sequence := tracker.sequence + 1 }

/-
  A rejected event leaves the tracker as it was.  An accepted
  one is counted, and what is told is how things stand then.
-/
theorem apply_cases
    (tracker : Tracker)
    (event : DriveEvent) :
    (∃ cause,
      tracker.apply event = (.error cause, tracker)) ∨
    (∃ after,
      tracker.Reacts event after ∧
        tracker.apply event =
          (.ok after.counted.snapshot, after.counted)) := by
  unfold apply
  rcases tracker.react_cases event with
    ⟨cause, hRejected⟩ | ⟨after, hAccepted, hReacts⟩
  · left
    rw [hRejected]
    exact ⟨cause, rfl⟩
  · right
    rw [hAccepted]
    exact ⟨after, hReacts, rfl⟩

end Tracker

end DriveMarket
