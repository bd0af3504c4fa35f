import DriveMarket.Proofs.Drive.Modifications
import DriveMarket.Proofs.Lifecycle.Runs
import DriveMarket.Proofs.Ordered.Keys

/-
  Where a drive stands, told from the events that were
  accepted for it.

  A drive is prepared until enough replicators have joined.  A
  verification round runs from its start to the end that
  carries its trigger, and nothing but joins and modifications
  happens in between.  A replicator serves the drive from its
  last join until a round lists it as failed.

  Key definitions include:
    * `Since`
    * `DriveEvent.isDuringRound`
    * `RoundRunning`
    * `Serving`
    * `Tracker.Coherent`
    * `Tracker.Staffed`
    * `Tracker.Follows`
    * `Tracker.Knows`
    * `Tracker.Standing`

  Correctness is proven by:
    * `since_append_singleton`
    * `Tracker.Reacts.coherent`
    * `Tracker.Reacts.staffed`
    * `Tracker.Reacts.follows`
    * `Tracker.Reacts.during_round`
    * `Tracker.Reacts.knows`
    * `Tracker.standing_of_start`
-/

namespace DriveMarket

------------------------------------------------------------
-- Histories
------------------------------------------------------------

/-
  Some event of a history is marked, and every later one is of
  the kind to keep.
-/
def Since
    (mark keep : DriveEvent → Prop)
    (history : List DriveEvent) : Prop :=
  ∃ earlier event later,
    history = earlier ++ event :: later ∧
      mark event ∧ ∀ other ∈ later, keep other

theorem not_since_nil
    {mark keep : DriveEvent → Prop} :
    ¬ Since mark keep [] := by
  rintro ⟨earlier, event, later, hNil, -, -⟩
  cases earlier with
  | nil => cases hNil
  | cons head rest => cases hNil

/- One more event marks, or it keeps what was before it. -/
theorem since_append_singleton
    {mark keep : DriveEvent → Prop}
    {history : List DriveEvent}
    {event : DriveEvent} :
    Since mark keep (history ++ [event]) ↔
      mark event ∨ keep event ∧ Since mark keep history := by
  constructor
  · rintro ⟨earlier, marked, later, hHistory, hMark, hKeep⟩
    rcases later.eq_nil_or_concat with
      rfl | ⟨others, last, rfl⟩
    · -- The marked event is the last one.
      rcases List.append_inj' hHistory rfl with ⟨-, hLast⟩
      cases hLast
      exact .inl hMark
    · rw [List.concat_eq_append] at hHistory hKeep
      rw [← List.cons_append, ← List.append_assoc] at hHistory
      rcases List.append_inj' hHistory rfl with ⟨rfl, hLast⟩
      cases hLast
      rw [List.forall_mem_append] at hKeep
      right
      exact ⟨hKeep.2 event (List.mem_singleton_self event),
        earlier, marked, others, rfl, hMark, hKeep.1⟩
  · rintro (hMark | ⟨hKept, hSince⟩)
    · refine ⟨history, event, [], rfl, hMark, ?_⟩
      intro other hMem
      cases hMem
    · rcases hSince with
        ⟨earlier, marked, later, rfl, hMark, hKeep⟩
      refine ⟨earlier, marked, later ++ [event], ?_, hMark, ?_⟩
      · rw [List.append_assoc, List.cons_append]
      · rw [List.forall_mem_append]
        exact ⟨hKeep, List.forall_mem_singleton.mpr hKept⟩

namespace DriveEvent

/- Whether a replicator joins. -/
def isJoin : DriveEvent → Bool
  | .replicatorJoined _ => true
  | _ => false

/- Whether it may happen while a round is running. -/
def isDuringRound : DriveEvent → Bool
  | .replicatorJoined _ => true
  | .modificationSubmitted _ => true
  | .modificationApproved .. => true
  | .modificationCancelled _ => true
  | _ => false

/- Whether a round ends for which a replicator failed. -/
def Fails
    (replicator : PublicKey)
    (event : DriveEvent) : Prop :=
  ∃ trigger failed,
    event = .verificationEnded trigger failed ∧
      replicator ∈ failed

end DriveEvent

/- The round of a trigger has started and not ended. -/
def RoundRunning
    (trigger : Digest)
    (history : List DriveEvent) : Prop :=
  Since (· = .verificationStarted trigger)
    (·.isDuringRound) history

theorem roundRunning_append_singleton
    {trigger : Digest}
    {history : List DriveEvent}
    {event : DriveEvent} :
    RoundRunning trigger (history ++ [event]) ↔
      event = .verificationStarted trigger ∨
        event.isDuringRound ∧ RoundRunning trigger history :=
  since_append_singleton

/- A replicator has not failed since it last joined. -/
def Serving
    (replicator : PublicKey)
    (history : List DriveEvent) : Prop :=
  Since (· = .replicatorJoined replicator)
    (fun event =>
      event ≠ .replicatorJoined replicator ∧
        ¬ event.Fails replicator)
    history

theorem serving_append_singleton
    {replicator : PublicKey}
    {history : List DriveEvent}
    {event : DriveEvent} :
    Serving replicator (history ++ [event]) ↔
      event = .replicatorJoined replicator ∨
        (event ≠ .replicatorJoined replicator ∧
            ¬ event.Fails replicator) ∧
          Serving replicator history :=
  since_append_singleton

/- How many joins there were. -/
def joins
    (history : List DriveEvent) : Nat :=
  history.countP (·.isJoin)

namespace Tracker

variable {tracker after : Tracker}
variable {history : List DriveEvent}
variable {event : DriveEvent}

------------------------------------------------------------
-- Flags and Trigger
------------------------------------------------------------

/- Flags and trigger are those of the status. -/
def Coherent
    (tracker : Tracker) : Prop :=
  match tracker.status with
  | .preparing | .active =>
      tracker.verification = .idle ∧ tracker.trigger = none
  | .verificationPending =>
      tracker.verification = .running ∧
        ∃ trigger, tracker.trigger = some trigger
  | .closing | .closed =>
      tracker.verification = .unavailable ∧
        tracker.trigger = none

theorem coherent_start
    (drive : Drive) :
    (start drive).Coherent :=
  ⟨rfl, rfl⟩

theorem Coherent.idle
    (hCoherent : tracker.Coherent)
    (hStatus :
      tracker.status = .preparing ∨
        tracker.status = .active) :
    tracker.verification = .idle ∧ tracker.trigger = none := by
  unfold Coherent at hCoherent
  rcases hStatus with hStatus | hStatus
  · rw [hStatus] at hCoherent
    exact hCoherent
  · rw [hStatus] at hCoherent
    exact hCoherent

theorem Coherent.running
    (hCoherent : tracker.Coherent)
    (hStatus : tracker.status = .verificationPending) :
    tracker.verification = .running ∧
      ∃ trigger, tracker.trigger = some trigger := by
  unfold Coherent at hCoherent
  rw [hStatus] at hCoherent
  exact hCoherent

theorem Coherent.unavailable
    (hCoherent : tracker.Coherent)
    (hStatus :
      tracker.status = .closing ∨
        tracker.status = .closed) :
    tracker.verification = .unavailable ∧
      tracker.trigger = none := by
  unfold Coherent at hCoherent
  rcases hStatus with hStatus | hStatus
  · rw [hStatus] at hCoherent
    exact hCoherent
  · rw [hStatus] at hCoherent
    exact hCoherent

theorem Reacts.coherent
    (hReacts : tracker.Reacts event after)
    (hBefore : tracker.Coherent) :
    after.Coherent := by
  unfold Coherent at hBefore ⊢
  cases hReacts with
  | joined hClosing hClosed hNew =>
      dsimp only
      split_ifs with hEnough
      · rw [hEnough.1] at hBefore
        exact hBefore
      · exact hBefore
  | submitted hStatus hAdd => exact hBefore
  | approved hStatus hComplete => exact hBefore
  | cancelled hStatus hComplete => exact hBefore
  | started hStatus hAvailable => exact ⟨rfl, _, rfl⟩
  | ended hStatus hTrigger => exact ⟨rfl, rfl⟩
  | requested hStatus =>
      rw [hStatus] at hBefore
      exact ⟨rfl, hBefore.2⟩
  | finalized hStatus =>
      rw [hStatus] at hBefore
      exact hBefore

------------------------------------------------------------
-- Closed Drives
------------------------------------------------------------

/- No event has an effect on a closed drive. -/
theorem not_reacts_of_closed
    (hClosed : tracker.status = .closed) :
    ¬ tracker.Reacts event after := by
  intro hReacts
  cases hReacts with
  | joined _ hNotClosed _ => exact hNotClosed hClosed
  | submitted hStatus | approved hStatus | cancelled hStatus
  | started hStatus | ended hStatus | requested hStatus
  | finalized hStatus =>
      rw [hClosed] at hStatus
      cases hStatus

/- So it rejects them all. -/
theorem apply_of_closed
    (hClosed : tracker.status = .closed)
    (event : DriveEvent) :
    ∃ cause, tracker.apply event = (.error cause, tracker) :=
  apply_of_not_reacts fun _ => not_reacts_of_closed hClosed

theorem applyAll_of_closed
    (hClosed : tracker.status = .closed)
    (events : List DriveEvent) :
    tracker.applyAll events = tracker := by
  induction events with
  | nil => rfl
  | cons event rest ih =>
      rcases apply_of_closed hClosed event with
        ⟨cause, hRejected⟩
      rw [applyAll, hRejected, ih]

/- A closed drive has no active modifications. -/
def Emptied
    (tracker : Tracker) : Prop :=
  tracker.status = .closed → tracker.drive.active = []

theorem Reacts.emptied
    (hReacts : tracker.Reacts event after) :
    after.Emptied := by
  intro hStatus
  cases hReacts with
  | joined _ hNotClosed _ =>
      dsimp only at hStatus
      split_ifs at hStatus
      exact absurd hStatus hNotClosed
  | submitted hAllowed | approved hAllowed
  | cancelled hAllowed =>
      have hBefore : tracker.status = .closed := hStatus
      rw [hBefore] at hAllowed
      cases hAllowed
  | started | ended | requested => cases hStatus
  | finalized => rfl

------------------------------------------------------------
-- Preparation
------------------------------------------------------------

/-
  While a drive is prepared nobody leaves it, so those who
  serve it are all who have joined, and they are too few.
-/
def Staffed
    (history : List DriveEvent)
    (tracker : Tracker) : Prop :=
  (tracker.status = .preparing →
    tracker.replicators.size = joins history ∧
      joins history < tracker.drive.replicatorCount.toNat) ∧
  (tracker.status ≠ .preparing →
    tracker.drive.replicatorCount.toNat ≤ joins history)

theorem staffed_start
    {drive : Drive}
    (hCount : 1 ≤ drive.replicatorCount.toNat) :
    Staffed [] (start drive) := by
  constructor
  · intro _
    exact ⟨rfl, hCount⟩
  · intro hLeft
    exact absurd rfl hLeft

theorem Staffed.preparing_iff
    (hStaffed : Staffed history tracker) :
    tracker.status = .preparing ↔
      joins history < tracker.drive.replicatorCount.toNat := by
  constructor
  · intro hPreparing
    exact (hStaffed.1 hPreparing).2
  · intro hFew
    by_contra hLeft
    exact Nat.not_le_of_lt hFew (hStaffed.2 hLeft)

theorem joins_append_singleton
    (history : List DriveEvent)
    (event : DriveEvent) :
    joins (history ++ [event]) =
      joins history + if event.isJoin then 1 else 0 := by
  simp [joins, List.countP_append, List.countP_singleton]

theorem Reacts.replicatorCount_eq
    (hReacts : tracker.Reacts event after) :
    after.drive.replicatorCount =
      tracker.drive.replicatorCount := by
  cases hReacts with
  | joined | started | ended | requested | finalized => rfl
  | submitted hStatus hAdd =>
      rcases Drive.add_eq_ok hAdd with ⟨-, rfl⟩
      rfl
  | approved hStatus hComplete =>
      rcases Drive.complete_eq_ok hComplete with
        ⟨_, _, _, -, -, rfl⟩
      rfl
  | cancelled hStatus hComplete =>
      rcases Drive.complete_eq_ok hComplete with
        ⟨_, _, _, -, -, rfl⟩
      rfl

theorem Reacts.staffed
    (hReacts : tracker.Reacts event after)
    (hBefore : Staffed history tracker) :
    Staffed (history ++ [event]) after := by
  rcases hBefore with ⟨hTooFew, hEnough⟩
  unfold Staffed
  rw [joins_append_singleton, hReacts.replicatorCount_eq]
  cases hReacts with
  | @joined replicator hClosing hClosed hNew =>
      have hSize :
          (tracker.replicators.add replicator).size =
            tracker.replicators.size + 1 :=
        OrderedMap.size_insert_of_new () hNew
      simp only [DriveEvent.isJoin, if_true, hSize]
      -- Only a join that is the last one needed ends preparation.
      by_cases hPreparing : tracker.status = .preparing
      · rcases hTooFew hPreparing with ⟨hAll, hFew⟩
        rw [hPreparing, hAll]
        split_ifs with hComplete
        · constructor
          · intro hStill
            cases hStill
          · intro _
            exact hComplete.2
        · constructor
          · intro _
            exact ⟨rfl,
              Nat.lt_of_not_le fun hReached =>
                hComplete ⟨rfl, hReached⟩⟩
          · intro hLeft
            exact absurd rfl hLeft
      · rw [if_neg fun hBoth => hPreparing hBoth.1]
        constructor
        · intro hStill
          exact absurd hStill hPreparing
        · intro hLeft
          exact Nat.le_succ_of_le (hEnough hLeft)
  | submitted | approved | cancelled =>
      exact ⟨hTooFew, hEnough⟩
  | started hStatus | ended hStatus | requested hStatus
  | finalized hStatus =>
      rw [hStatus] at hEnough
      constructor
      · intro hStill
        cases hStill
      · intro _
        exact hEnough (by decide)

------------------------------------------------------------
-- Rounds
------------------------------------------------------------

/- A tracker knows which round is running. -/
def Follows
    (history : List DriveEvent)
    (tracker : Tracker) : Prop :=
  ∀ trigger,
    RoundRunning trigger history ↔
      tracker.status = .verificationPending ∧
        tracker.trigger = some trigger

theorem follows_start
    (drive : Drive) :
    Follows [] (start drive) := by
  intro trigger
  constructor
  · intro hSince
    exact absurd hSince not_since_nil
  · rintro ⟨hStatus, -⟩
    cases hStatus

theorem Reacts.follows
    (hReacts : tracker.Reacts event after)
    (hBefore : Follows history tracker) :
    Follows (history ++ [event]) after := by
  intro trigger
  rw [roundRunning_append_singleton, hBefore trigger]
  cases hReacts with
  | joined =>
      simp only [reduceCtorEq, false_or,
        DriveEvent.isDuringRound, true_and]
      split_ifs with hEnough
      · simp [hEnough.1]
      · rfl
  | submitted | approved | cancelled | started | ended
  | requested | finalized => simp [DriveEvent.isDuringRound]

/-
  While a round is running, every accepted event leaves it
  running or ends it with its own trigger.
-/
theorem Reacts.during_round
    {trigger : Digest}
    (hReacts : tracker.Reacts event after)
    (hStatus : tracker.status = .verificationPending)
    (hTrigger : tracker.trigger = some trigger) :
    event.isDuringRound ∨
      ∃ failed, event = .verificationEnded trigger failed := by
  cases hReacts with
  | joined | submitted | approved | cancelled => exact .inl rfl
  | ended _ hEnds =>
      cases hEnds trigger (Option.mem_def.mpr hTrigger)
      exact .inr ⟨_, rfl⟩
  | started hOther | requested hOther | finalized hOther =>
      rw [hStatus] at hOther
      cases hOther

------------------------------------------------------------
-- Serving Replicators
------------------------------------------------------------

/- A tracker knows who serves the drive. -/
def Knows
    (history : List DriveEvent)
    (tracker : Tracker) : Prop :=
  ∀ replicator,
    tracker.replicators.contains replicator ↔
      Serving replicator history

theorem knows_start
    (drive : Drive) :
    Knows [] (start drive) := by
  intro replicator
  constructor
  · intro hContains
    cases hContains
  · intro hSince
    exact absurd hSince not_since_nil

theorem Reacts.knows
    (hReacts : tracker.Reacts event after)
    (hBefore : Knows history tracker) :
    Knows (history ++ [event]) after := by
  intro replicator
  rw [serving_append_singleton, ← hBefore replicator]
  cases hReacts with
  | @joined other =>
      by_cases hOther : other = replicator
      · simp [OrderedSet.add, OrderedMap.contains_insert,
          hOther]
      · simp [OrderedSet.add, OrderedMap.contains_insert,
          DriveEvent.Fails, hOther, Ne.symm hOther]
  | ended =>
      simp [OrderedSet.contains_foldl_erase,
        DriveEvent.Fails, and_comm]
  | submitted | approved | cancelled | started | requested
  | finalized => simp [DriveEvent.Fails]

------------------------------------------------------------
-- Modifications
------------------------------------------------------------

theorem acceptsModifications_iff
    {status : DriveStatus} :
    status.acceptsModifications ↔
      status = .active ∨ status = .verificationPending := by
  cases status <;> decide

theorem resolvesModifications_iff
    {status : DriveStatus} :
    status.resolvesModifications ↔
      status = .active ∨ status = .verificationPending ∨
        status = .closing := by
  cases status <;> decide

------------------------------------------------------------
-- The Life of a Drive
------------------------------------------------------------

/-
  Where a drive stands that was prepared once and for which
  events have been accepted since.
-/
structure Standing
    (drive : Drive)
    (accepted : List DriveEvent)
    (tracker : Tracker) : Prop where
  preparing_iff :
    tracker.status = .preparing ↔
      joins accepted < drive.replicatorCount.toNat
  idle :
    tracker.status = .preparing ∨ tracker.status = .active →
    tracker.verification = .idle ∧ tracker.trigger = none
  running :
    tracker.status = .verificationPending →
    tracker.verification = .running ∧
      ∃ trigger, tracker.trigger = some trigger
  unavailable :
    tracker.status = .closing ∨ tracker.status = .closed →
    tracker.verification = .unavailable ∧
      tracker.trigger = none
  /- The trigger that is held is that of the round. -/
  round_iff :
    ∀ trigger,
      RoundRunning trigger accepted ↔
        tracker.status = .verificationPending ∧
          tracker.trigger = some trigger
  /- No closure and no other round until a round has ended. -/
  during_round :
    ∀ trigger event,
      RoundRunning trigger accepted →
      tracker.Accepts event →
      event.isDuringRound ∨
        ∃ failed, event = .verificationEnded trigger failed
  /- Only the round that is running can end. -/
  ended :
    ∀ trigger failed,
      tracker.Accepts (.verificationEnded trigger failed) →
      RoundRunning trigger accepted
  submitted :
    ∀ modification,
      tracker.Accepts (.modificationSubmitted modification) →
      tracker.status = .active ∨
        tracker.status = .verificationPending
  approved :
    ∀ id rootHash used metaFiles,
      tracker.Accepts
        (.modificationApproved id rootHash used metaFiles) →
      tracker.status = .active ∨
        tracker.status = .verificationPending ∨
          tracker.status = .closing
  cancelled :
    ∀ id,
      tracker.Accepts (.modificationCancelled id) →
      tracker.status = .active ∨
        tracker.status = .verificationPending ∨
          tracker.status = .closing
  closed :
    tracker.status = .closed →
    tracker.drive.active = [] ∧
      (∀ event, ∃ cause,
        tracker.apply event = (.error cause, tracker)) ∧
      ∀ later, tracker.applyAll later = tracker
  serving_iff :
    ∀ replicator,
      tracker.replicators.contains replicator ↔
        Serving replicator accepted

/- Whatever has happened to a drive, it stands like that. -/
theorem standing_of_start
    (drive : Drive)
    (events : List DriveEvent)
    (hCount : 1 ≤ drive.replicatorCount.toNat) :
    Standing drive ((start drive).accepted events)
      ((start drive).applyAll events) := by
  have hRun := (start drive).run_steps events
  have hCoherent : Coherent _ :=
    hRun.invariant (P := fun _ => Coherent)
      (coherent_start drive)
      fun _ _ _ _ hReacts => hReacts.coherent
  have hEmptied : Emptied _ :=
    hRun.invariant (P := fun _ => Emptied)
      (fun hClosed => by cases hClosed)
      fun _ _ _ _ hReacts _ => hReacts.emptied
  have hCountKept :=
    hRun.invariant
      (P := fun _ now =>
        now.drive.replicatorCount = drive.replicatorCount)
      rfl
      fun _ _ _ _ hReacts hBefore =>
        hReacts.replicatorCount_eq.trans hBefore
  have hStaffed :=
    hRun.invariant (P := Staffed) (staffed_start hCount)
      fun _ _ _ _ hReacts => hReacts.staffed
  have hFollows :=
    hRun.invariant (P := Follows) (follows_start drive)
      fun _ _ _ _ hReacts => hReacts.follows
  have hKnows :=
    hRun.invariant (P := Knows) (knows_start drive)
      fun _ _ _ _ hReacts => hReacts.knows
  constructor
  case preparing_iff =>
    rw [← hCountKept]
    exact hStaffed.preparing_iff
  case idle => exact hCoherent.idle
  case running => exact hCoherent.running
  case round_iff => exact hFollows
  case unavailable => exact hCoherent.unavailable
  case during_round =>
    intro trigger event hRound hAccepts
    rcases hAccepts.exists_reacts with ⟨after, hReacts⟩
    rcases (hFollows trigger).mp hRound with
      ⟨hStatus, hTrigger⟩
    exact hReacts.during_round hStatus hTrigger
  case ended =>
    intro trigger failed hAccepts
    rcases hAccepts.exists_reacts with ⟨after, hReacts⟩
    cases hReacts with
    | ended hStatus hEnds =>
        rcases hCoherent.running hStatus with
          ⟨-, expected, hTrigger⟩
        cases hEnds expected (Option.mem_def.mpr hTrigger)
        exact (hFollows trigger).mpr ⟨hStatus, hTrigger⟩
  case submitted =>
    intro modification hAccepts
    rcases hAccepts.exists_reacts with ⟨after, hReacts⟩
    cases hReacts with
    | submitted hStatus =>
        exact acceptsModifications_iff.mp hStatus
  case approved =>
    intro id rootHash used metaFiles hAccepts
    rcases hAccepts.exists_reacts with ⟨after, hReacts⟩
    cases hReacts with
    | approved hStatus =>
        exact resolvesModifications_iff.mp hStatus
  case cancelled =>
    intro id hAccepts
    rcases hAccepts.exists_reacts with ⟨after, hReacts⟩
    cases hReacts with
    | cancelled hStatus =>
        exact resolvesModifications_iff.mp hStatus
  case closed =>
    intro hClosed
    exact ⟨hEmptied hClosed, apply_of_closed hClosed,
      applyAll_of_closed hClosed⟩
  case serving_iff =>
    exact hKnows

/-
  A drive for two replicators goes through a first round, in
  which two of three fail, and into a second one.  Of twelve
  events five are rejected: a modification before the drive is
  ready, a second join, a closure and another round during the
  first one, and an end with the wrong trigger.
-/
theorem standing_of_start_second_round :
    let key (n : UInt8) : PublicKey :=
      ⟨List.replicate 32 n, List.length_replicate⟩
    let drive := Drive.prepared (key 0) (key 1) ⟨100⟩ 2
    let modification : Modification :=
      ⟨key 2, key 1, key 3, ⟨5⟩⟩
    let events : List DriveEvent :=
      [.modificationSubmitted modification,
        .replicatorJoined (key 4),
        .replicatorJoined (key 4),
        .replicatorJoined (key 5),
        .verificationStarted (key 6),
        .closureRequested,
        .verificationStarted (key 7),
        .replicatorJoined (key 8),
        .verificationEnded (key 7) [],
        .verificationEnded (key 6) [key 4, key 8],
        .verificationStarted (key 7),
        .modificationSubmitted modification]
    let tracker := (start drive).applyAll events
    let accepted := (start drive).accepted events
    1 ≤ drive.replicatorCount.toNat ∧
    accepted.length = 7 ∧
    tracker.status = .verificationPending ∧
    RoundRunning (key 7) accepted ∧
    ¬ Serving (key 4) accepted ∧
    Serving (key 5) accepted := by
  intro key drive modification events tracker accepted
  have hCount : 1 ≤ drive.replicatorCount.toNat := by decide
  have hStanding := standing_of_start drive events hCount
  have hStatus : tracker.status = .verificationPending := by
    decide +kernel
  refine ⟨hCount, by decide +kernel, hStatus, ?_, ?_, ?_⟩
  · apply (hStanding.round_iff (key 7)).mpr
    exact ⟨hStatus, by decide +kernel⟩
  · rw [← hStanding.serving_iff]
    decide +kernel
  · rw [← hStanding.serving_iff]
    decide +kernel

end Tracker

end DriveMarket
