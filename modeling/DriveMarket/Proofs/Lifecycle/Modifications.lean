import DriveMarket.Proofs.Drive.Modifications
import DriveMarket.Proofs.Lifecycle.Runs

/-
  What becomes of the modifications of a drive.

  As long as ids are distinct, an accepted event adds at most
  one record, at the end of the active list, and moves those
  that it resolves to the end of the completed list.  So over
  any run the records are those there were and those that were
  submitted, each one once and as it was.

  Key definitions include:
    * `DriveEvent.submission?`
    * `DriveEvent.outcome?`
    * `Tracker.Step.resolved`
    * `Tracker.submissions`
    * `Tracker.Accounts`

  Correctness is proven by:
    * `Tracker.Reacts.records_perm`
    * `Tracker.Reacts.active_sublist`
    * `Tracker.Reacts.completed_eq`
    * `Tracker.Run.accounts`
    * `Tracker.modifications_kept`
-/

namespace DriveMarket

namespace DriveEvent

------------------------------------------------------------
-- Submissions and Resolutions
------------------------------------------------------------

/- The modification that an event submits. -/
def submission? : DriveEvent → Option Modification
  | .modificationSubmitted modification => some modification
  | _ => none

/- How an active modification of an id ends with an event. -/
def outcome?
    (id : Digest) : DriveEvent → Option ModificationOutcome
  | .modificationApproved approved _ _ _ =>
      if approved = id then some .succeeded else none
  | .modificationCancelled cancelled =>
      if cancelled = id then some .cancelled else none
  | .closureFinalized => some .cancelled
  | _ => none

theorem submission?_eq_some_iff
    {event : DriveEvent}
    {modification : Modification} :
    event.submission? = some modification ↔
      event = .modificationSubmitted modification := by
  cases event <;> simp [submission?]

/- Only an approval makes a modification succeed. -/
theorem outcome?_eq_succeeded_iff
    {event : DriveEvent}
    {id : Digest} :
    event.outcome? id = some .succeeded ↔
      ∃ rootHash used metaFiles,
        event =
          .modificationApproved id rootHash used metaFiles := by
  cases event <;> simp [outcome?]

/- It is cancelled on its own, or when its drive is closed. -/
theorem outcome?_eq_cancelled_iff
    {event : DriveEvent}
    {id : Digest} :
    event.outcome? id = some .cancelled ↔
      event = .modificationCancelled id ∨
        event = .closureFinalized := by
  cases event <;> simp [outcome?]

end DriveEvent

namespace Drive

/- Cancelling everything loses no record and adds none. -/
theorem records_cancelled
    (drive : Drive) :
    drive.cancelled.records.Perm drive.records := by
  have hSame :
      (drive.active.map
          (⟨·, .cancelled⟩ : Modification →
            CompletedModification)).map (·.modification) =
        drive.active := by
    rw [List.map_map]
    exact List.map_id _
  unfold records cancelled
  rw [List.map_append, List.nil_append, hSame]
  exact List.perm_append_comm

end Drive

namespace Tracker

variable {first tracker after : Tracker}
variable {steps : List Step}
variable {event : DriveEvent}

/- The modifications that a step resolves, in their order. -/
def Step.resolved
    (step : Step) : List CompletedModification :=
  step.before.drive.active.filterMap fun modification =>
    (step.event.outcome? modification.id).map
      (⟨modification, ·⟩)

theorem Step.mem_resolved_iff
    {step : Step}
    {modification : Modification}
    {outcome : ModificationOutcome} :
    ⟨modification, outcome⟩ ∈ step.resolved ↔
      modification ∈ step.before.drive.active ∧
        step.event.outcome? modification.id =
          some outcome := by
  simp [resolved]

/- The modifications that steps submit, in order. -/
def submissions
    (steps : List Step) : List Modification :=
  steps.filterMap (·.event.submission?)

------------------------------------------------------------
-- One Event
------------------------------------------------------------

/- No record is lost, and only a submission adds one. -/
theorem Reacts.records_perm
    (hReacts : tracker.Reacts event after) :
    after.drive.records.Perm
      (tracker.drive.records ++ event.submission?.toList) := by
  cases hReacts with
  | joined | started | ended | requested =>
      simp [DriveEvent.submission?]
  | submitted hStatus hAdd => exact Drive.records_add hAdd
  | approved hStatus hComplete
  | cancelled hStatus hComplete =>
      have hRecords := Drive.records_complete hComplete
      exact hRecords.trans (by simp [DriveEvent.submission?])
  | finalized hStatus =>
      have hRecords := tracker.drive.records_cancelled
      exact hRecords.trans (by simp [DriveEvent.submission?])

/- Active modifications keep their order; a new one is last. -/
theorem Reacts.active_sublist
    (hReacts : tracker.Reacts event after) :
    after.drive.active.Sublist
      (tracker.drive.active ++ event.submission?.toList) := by
  cases hReacts with
  | joined | started | ended | requested =>
      simp [DriveEvent.submission?]
  | submitted hStatus hAdd =>
      rcases Drive.add_eq_ok hAdd with ⟨-, rfl⟩
      exact List.Sublist.refl _
  | approved hStatus hComplete
  | cancelled hStatus hComplete =>
      rcases Drive.complete_eq_ok hComplete with
        ⟨left, modification, right, -, hActive, rfl⟩
      simp [DriveEvent.submission?, hActive]
  | finalized hStatus => exact List.nil_sublist _

/- Ids stay distinct. -/
theorem Reacts.distinct
    (hReacts : tracker.Reacts event after)
    (hDistinct : tracker.drive.Distinct) :
    after.drive.Distinct := by
  have hIds := hReacts.records_perm.map (·.id)
  rw [List.map_append] at hIds
  unfold Drive.Distinct
  refine hIds.nodup_iff.mpr ?_
  -- Only a submission brings an id, and only one that is new.
  cases hSubmission : event.submission? with
  | none =>
      rw [Option.toList_none, List.map_nil, List.append_nil]
      exact hDistinct
  | some modification =>
      rw [DriveEvent.submission?_eq_some_iff] at hSubmission
      subst hSubmission
      cases hReacts with
      | submitted hStatus hAdd =>
          rcases Drive.add_eq_ok hAdd with ⟨hNew, -⟩
          rw [Option.toList_some, List.map_singleton,
            List.nodup_append_comm]
          exact List.nodup_cons.mpr ⟨hNew, hDistinct⟩

/- Among distinct ids, an event finds the one that it names. -/
theorem filterMap_named
    {left right : List Modification}
    {modification : Modification}
    (outcome : ModificationOutcome)
    (hDistinct :
      ((left ++ modification :: right).map (·.id)).Nodup) :
    ((left ++ modification :: right).filterMap fun other =>
        (if modification.id = other.id then
          some outcome
        else
          none).map
          (⟨other, ·⟩ : ModificationOutcome →
            CompletedModification)) =
      [⟨modification, outcome⟩] := by
  rw [List.map_append, List.map_cons, List.nodup_middle,
    List.nodup_cons, ← List.map_append] at hDistinct
  have hOthers :
      ∀ other ∈ left ++ right, modification.id ≠ other.id := by
    intro other hMem hSame
    exact hDistinct.1 (hSame ▸ List.mem_map_of_mem hMem)
  rw [List.forall_mem_append] at hOthers
  rw [List.filterMap_append, List.filterMap_cons,
    if_pos rfl]
  rw [List.filterMap_eq_nil_iff.mpr, List.filterMap_eq_nil_iff.mpr]
  · rfl
  · intro other hMem
    rw [if_neg (hOthers.2 other hMem)]
    rfl
  · intro other hMem
    rw [if_neg (hOthers.1 other hMem)]
    rfl

/- What an event resolves is completed, after all others. -/
theorem Reacts.completed_eq
    (hReacts : tracker.Reacts event after)
    (hDistinct : tracker.drive.Distinct) :
    after.drive.completed =
      tracker.drive.completed ++
        Step.resolved ⟨tracker, event⟩ := by
  unfold Step.resolved
  unfold Drive.Distinct Drive.ids Drive.records at hDistinct
  rw [List.map_append] at hDistinct
  have hActive := hDistinct.of_append_left
  cases hReacts with
  | joined | started | ended | requested =>
      simp [DriveEvent.outcome?]
  | submitted hStatus hAdd =>
      rcases Drive.add_eq_ok hAdd with ⟨-, rfl⟩
      simp [DriveEvent.outcome?]
  | approved hStatus hComplete
  | cancelled hStatus hComplete =>
      rcases Drive.complete_eq_ok hComplete with
        ⟨left, modification, right, rfl, hSplit, rfl⟩
      rw [hSplit] at hActive ⊢
      exact congrArg (tracker.drive.completed ++ ·)
        (filterMap_named _ hActive).symm
  | finalized hStatus =>
      simp [DriveEvent.outcome?, Drive.cancelled]

------------------------------------------------------------
-- Runs
------------------------------------------------------------

/- What steps leave of the modifications that they found. -/
structure Accounts
    (first : Tracker)
    (steps : List Step)
    (tracker : Tracker) : Prop where
  distinct :
    tracker.drive.Distinct
  completed :
    tracker.drive.completed =
      first.drive.completed ++ steps.flatMap (·.resolved)
  records :
    tracker.drive.records.Perm
      (first.drive.records ++ submissions steps)
  active :
    tracker.drive.active.Sublist
      (first.drive.active ++ submissions steps)

theorem submissions_append_singleton
    (steps : List Step)
    (step : Step) :
    submissions (steps ++ [step]) =
      submissions steps ++ step.event.submission?.toList := by
  unfold submissions
  rw [List.filterMap_append]
  cases hSubmission : step.event.submission? with
  | none => simp [hSubmission]
  | some modification => simp [hSubmission]

theorem Accounts.step
    (hBefore : Accounts first steps tracker)
    (hReacts : tracker.Reacts event after) :
    Accounts first (steps ++ [⟨tracker, event⟩]) after where
  distinct := hReacts.distinct hBefore.distinct
  completed := by
    rw [hReacts.completed_eq hBefore.distinct,
      hBefore.completed, List.flatMap_append,
      List.flatMap_singleton, List.append_assoc]
  records := by
    rw [submissions_append_singleton, ← List.append_assoc]
    exact hReacts.records_perm.trans
      (hBefore.records.append_right _)
  active := by
    rw [submissions_append_singleton, ← List.append_assoc]
    exact hReacts.active_sublist.trans
      (hBefore.active.append_right _)

theorem Run.accounts
    (hRun : Run first steps tracker)
    (hDistinct : first.drive.Distinct) :
    Accounts first steps tracker := by
  induction hRun with
  | start =>
      constructor
      case distinct => exact hDistinct
      case completed => simp
      case records => simp [submissions]
      case active => simp [submissions]
  | step hRun hReacts ih =>
      rcases ih.step hReacts with
        ⟨hIds, hCompleted, hRecords, hActive⟩
      exact ⟨hIds, hCompleted, hRecords, hActive⟩

namespace Accounts

variable {modification : Modification}

/- What was there and what was submitted has distinct ids. -/
theorem nodup
    (hAccounts : Accounts first steps tracker) :
    ((first.drive.records ++ submissions steps).map
      (·.id)).Nodup :=
  (hAccounts.records.map _).nodup_iff.mp hAccounts.distinct

/- An id that was completed before is not used again. -/
theorem not_completed_before
    (hAccounts : Accounts first steps tracker)
    (hKnown :
      modification ∈
        first.drive.active ++ submissions steps) :
    modification.id ∉ first.drive.completed.map (·.id) := by
  intro hMem
  have hNodup := hAccounts.nodup
  unfold Drive.records at hNodup
  rw [List.map_append, List.map_append, List.map_map] at hNodup
  rcases List.nodup_append'.mp hNodup with
    ⟨hBefore, -, hLater⟩
  rcases List.nodup_append'.mp hBefore with ⟨-, -, hApart⟩
  rcases List.mem_append.mp hKnown with hActive | hSubmitted
  · exact hApart (List.mem_map_of_mem hActive) hMem
  · exact hLater (List.mem_append_right _ hMem)
      (List.mem_map_of_mem hSubmitted)

/-
  A modification that was active or submitted has ended as
  some step has resolved it.
-/
theorem mem_completed_iff
    (hAccounts : Accounts first steps tracker)
    (hKnown :
      modification ∈
        first.drive.active ++ submissions steps)
    (outcome : ModificationOutcome) :
    ⟨modification, outcome⟩ ∈ tracker.drive.completed ↔
      ∃ step ∈ steps,
        modification ∈ step.before.drive.active ∧
          step.event.outcome? modification.id =
            some outcome := by
  rw [hAccounts.completed, List.mem_append,
    List.mem_flatMap]
  simp only [Step.mem_resolved_iff]
  constructor
  · rintro (hBefore | hResolved)
    · exact absurd (List.mem_map_of_mem hBefore)
        (hAccounts.not_completed_before hKnown)
    · exact hResolved
  · intro hResolved
    exact .inr hResolved

/- There is one record of it, as it was. -/
theorem count_eq_one
    (hAccounts : Accounts first steps tracker)
    (hKnown :
      modification ∈
        first.drive.active ++ submissions steps) :
    tracker.drive.active.count modification +
        (tracker.drive.completed.map
          (·.modification)).count modification = 1 := by
  rw [← List.count_append]
  apply List.count_eq_one_of_mem
  · exact List.Nodup.of_map _ hAccounts.distinct
  · apply hAccounts.records.mem_iff.mpr
    unfold Drive.records
    rw [List.mem_append] at hKnown
    rw [List.mem_append, List.mem_append]
    rcases hKnown with hActive | hSubmitted
    · exact .inl (.inl hActive)
    · exact .inr hSubmitted

end Accounts

------------------------------------------------------------
-- Nothing Is Lost
------------------------------------------------------------

/-
  Let events follow one another on a drive whose modifications
  have distinct ids.  Then:
    (a) the ids stay distinct;
    (b) the completed list only grows, at its end;
    (c) what was active or has been submitted has one record,
        as it was, and those still active are in their order;
    (d) it succeeded exactly if it was approved while active,
        and it is cancelled exactly if it was cancelled or its
        drive was closed while it was active;
    (e) an id that has been completed is not accepted again.
-/
theorem modifications_kept
    (tracker : Tracker)
    (events later : List DriveEvent)
    (hDistinct : tracker.drive.Distinct) :
    let steps := tracker.steps events
    let last := tracker.applyAll events
    last.drive.Distinct ∧
    last.drive.completed =
      tracker.drive.completed ++ steps.flatMap (·.resolved) ∧
    last.drive.records.Perm
      (tracker.drive.records ++ submissions steps) ∧
    last.drive.active.Sublist
      (tracker.drive.active ++ submissions steps) ∧
    (∀ modification ∈
        tracker.drive.active ++ submissions steps,
      last.drive.active.count modification +
          (last.drive.completed.map
            (·.modification)).count modification = 1 ∧
      (⟨modification, .succeeded⟩ ∈ last.drive.completed ↔
        ∃ step ∈ steps,
          modification ∈ step.before.drive.active ∧
            ∃ rootHash used metaFiles,
              step.event =
                .modificationApproved modification.id
                  rootHash used metaFiles) ∧
      (⟨modification, .cancelled⟩ ∈ last.drive.completed ↔
        ∃ step ∈ steps,
          modification ∈ step.before.drive.active ∧
            (step.event =
                .modificationCancelled modification.id ∨
              step.event = .closureFinalized))) ∧
    (∀ modification,
      last.drive.isCompleted modification.id →
      .modificationSubmitted modification ∉
        last.accepted later) := by
  intro steps last
  have hAccounts := (tracker.run_steps events).accounts hDistinct
  refine ⟨hAccounts.distinct, hAccounts.completed,
    hAccounts.records, hAccounts.active, ?_, ?_⟩
  · intro modification hKnown
    have hSucceeded :=
      hAccounts.mem_completed_iff hKnown .succeeded
    have hCancelled :=
      hAccounts.mem_completed_iff hKnown .cancelled
    simp only [DriveEvent.outcome?_eq_succeeded_iff]
      at hSucceeded
    simp only [DriveEvent.outcome?_eq_cancelled_iff]
      at hCancelled
    exact ⟨hAccounts.count_eq_one hKnown, hSucceeded,
      hCancelled⟩
  · intro modification hCompleted hAccepted
    have hLater :=
      (last.run_steps later).accounts hAccounts.distinct
    rcases List.mem_map.mp hAccepted with
      ⟨step, hStep, hEvent⟩
    have hSubmitted :
        modification ∈ submissions (last.steps later) :=
      List.mem_filterMap.mpr ⟨step, hStep,
        DriveEvent.submission?_eq_some_iff.mpr hEvent⟩
    exact hLater.not_completed_before
      (List.mem_append_right _ hSubmitted)
      (Drive.isCompleted_iff.mp hCompleted)

/-
  A drive is followed from the middle of a round on, with one
  modification completed and two active.  Another one is
  submitted and cancelled, one of the two is approved, and the
  other is still active when the drive is closed.  Submitting
  the approved one again is rejected.
-/
theorem modifications_kept_closing :
    let key (n : UInt8) : PublicKey :=
      ⟨List.replicate 32 n, List.length_replicate⟩
    let modification (n : UInt8) : Modification :=
      ⟨key n, key 1, key 0, ⟨5⟩⟩
    let drive : Drive := {
      Drive.prepared (key 0) (key 1) ⟨100⟩ 1 with
      active := [modification 3, modification 4]
      completed := [⟨modification 2, .succeeded⟩] }
    let tracker :=
      resume drive .verificationPending .running [key 9]
    let events : List DriveEvent :=
      [.modificationSubmitted (modification 5),
        .modificationApproved (key 4) (key 7) ⟨5⟩ ⟨1⟩,
        .modificationSubmitted (modification 4),
        .modificationCancelled (key 5),
        .verificationEnded (key 8) [],
        .closureRequested,
        .closureFinalized]
    let last := tracker.applyAll events
    tracker.drive.Distinct ∧
    last.drive.Distinct ∧
    submissions (tracker.steps events) = [modification 5] ∧
    ⟨modification 3, .cancelled⟩ ∈ last.drive.completed ∧
    ⟨modification 4, .succeeded⟩ ∈ last.drive.completed ∧
    .modificationSubmitted (modification 4) ∉
      last.accepted [.modificationSubmitted (modification 4)]
    := by
  intro key modification drive tracker events last
  have hDistinct : tracker.drive.Distinct := by
    decide +kernel
  rcases tracker.modifications_kept events
      [.modificationSubmitted (modification 4)] hDistinct with
    ⟨hIds, hCompleted, -, -, -, hAgain⟩
  have hResolved :
      (tracker.steps events).flatMap (·.resolved) =
        [⟨modification 4, .succeeded⟩,
          ⟨modification 5, .cancelled⟩,
          ⟨modification 3, .cancelled⟩] := by
    decide +kernel
  rw [hResolved] at hCompleted
  refine ⟨hDistinct, hIds, by decide +kernel, ?_, ?_, ?_⟩
  · rw [hCompleted]
    simp
  · rw [hCompleted]
    simp
  · apply hAgain
    rw [Drive.isCompleted, hCompleted]
    decide +kernel

end Tracker

end DriveMarket
