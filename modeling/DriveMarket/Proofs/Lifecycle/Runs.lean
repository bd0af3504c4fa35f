import DriveMarket.Proofs.Lifecycle.Steps

/-
  Runs of a tracker.

  Events are applied one after the other, and those that are
  rejected leave no trace.  So a run consists of its steps:
  the accepted events, each with the tracker that it met.

  Key definitions include:
    * `Tracker.Accepts`
    * `Tracker.Step`
    * `Tracker.applyAll`
    * `Tracker.steps`
    * `Tracker.accepted`
    * `Tracker.Run`

  Correctness is proven by:
    * `Tracker.Accepts.exists_reacts`
    * `Tracker.Run.invariant`
    * `Tracker.run_steps`
-/

namespace DriveMarket

namespace Tracker

------------------------------------------------------------
-- Accepting
------------------------------------------------------------

/- Whether an event is accepted. -/
def Accepts
    (tracker : Tracker)
    (event : DriveEvent) : Prop :=
  ∃ snapshot, (tracker.apply event).1 = .ok snapshot

theorem Accepts.exists_reacts
    {tracker : Tracker}
    {event : DriveEvent}
    (hAccepts : tracker.Accepts event) :
    ∃ after, tracker.Reacts event after := by
  rcases hAccepts with ⟨snapshot, hOk⟩
  rcases tracker.apply_cases event with
    ⟨cause, hRejected⟩ | ⟨after, hReacts, -⟩
  · rw [hRejected] at hOk
    cases hOk
  · exact ⟨after, hReacts⟩

/- An event that has no effect is rejected. -/
theorem apply_of_not_reacts
    {tracker : Tracker}
    {event : DriveEvent}
    (hNone : ∀ after, ¬ tracker.Reacts event after) :
    ∃ cause,
      tracker.apply event = (.error cause, tracker) := by
  rcases tracker.apply_cases event with
    hRejected | ⟨after, hReacts, -⟩
  · exact hRejected
  · exact absurd hReacts (hNone after)

------------------------------------------------------------
-- Many Events
------------------------------------------------------------

/- An accepted event, and the tracker that it met. -/
structure Step where
  before : Tracker
  event : DriveEvent

/- The tracker after events, one after the other. -/
def applyAll :
    List DriveEvent →
    Tracker →
    Tracker
  | [], tracker => tracker
  | event :: rest, tracker =>
      applyAll rest (tracker.apply event).2

/- The steps that events make, one after the other. -/
def steps :
    List DriveEvent →
    Tracker →
    List Step
  | [], _ => []
  | event :: rest, tracker =>
      match tracker.apply event with
      | (.error _, after) => steps rest after
      | (.ok _, after) => ⟨tracker, event⟩ :: steps rest after

/- The events that are accepted, in order. -/
def accepted
    (events : List DriveEvent)
    (tracker : Tracker) : List DriveEvent :=
  (tracker.steps events).map (·.event)

/-
  How one tracker comes about from another.  Runs grow at
  their end, where the effect of the last event is known.
-/
inductive Run
    (first : Tracker) : List Step → Tracker → Prop where
  | start : Run first [] first
  | step
      {steps : List Step}
      {before after : Tracker}
      {event : DriveEvent}
      (hRun : Run first steps before)
      (hReacts : before.Reacts event after) :
      Run first (steps ++ [⟨before, event⟩]) after.counted

theorem Run.append_steps
    {first tracker : Tracker}
    {done : List Step}
    (events : List DriveEvent)
    (hRun : Run first done tracker) :
    Run first (done ++ tracker.steps events)
      (tracker.applyAll events) := by
  induction events generalizing done tracker with
  | nil =>
      rw [steps, List.append_nil]
      exact hRun
  | cons event rest ih =>
      unfold steps applyAll
      rcases tracker.apply_cases event with
        ⟨cause, hRejected⟩ | ⟨after, hReacts, hAccepted⟩
      · rw [hRejected]
        exact ih hRun
      · rw [hAccepted]
        have hRest := ih (hRun.step hReacts)
        rw [List.append_assoc] at hRest
        exact hRest

/- What every step preserves holds after any run. -/
theorem Run.invariant
    {first tracker : Tracker}
    {done : List Step}
    {P : List DriveEvent → Tracker → Prop}
    (hRun : Run first done tracker)
    (hFirst : P [] first)
    (hStep :
      ∀ history before event after,
        before.Reacts event after →
        P history before →
        P (history ++ [event]) after.counted) :
    P (done.map (·.event)) tracker := by
  induction hRun with
  | start => exact hFirst
  | step hRun hReacts ih =>
      rw [List.map_append]
      exact hStep _ _ _ _ hReacts ih

/- Whatever events are applied, they make up a run. -/
theorem run_steps
    (tracker : Tracker)
    (events : List DriveEvent) :
    Run tracker (tracker.steps events)
      (tracker.applyAll events) :=
  Run.start.append_steps events

end Tracker

end DriveMarket
