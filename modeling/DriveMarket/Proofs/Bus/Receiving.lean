import DriveMarket.Bus.Basic
import Mathlib.Data.List.TakeWhile

/-
  What a reader of a ring leaves behind when it reads on.

  Of the events from its position on, some have been
  overwritten, and the others are queued.  The reader loses
  the first, passes over the queued events that it does not
  want, and stops behind the first one that it wants.

  Key definitions include:
    * `Ring.since`
    * `Ring.overwritten`
    * `Fate`
    * `Entry`
    * `Ring.record`

  Correctness is proven by:
    * `Ring.overwritten_append_queue`
    * `Ring.record_append_since`
    * `Ring.delivered_record`
    * `Ring.lost_record`
    * `Ring.late_of_lost`
    * `Ring.filter_queue`
    * `Ring.receive_eq_turn`
-/

namespace DriveMarket

variable {ε : Type}

------------------------------------------------------------
-- Slots
------------------------------------------------------------

/- A ring has at least the capacity it was asked for. -/
theorem le_powerOfTwoAbove
    (n : Nat) : n ≤ powerOfTwoAbove n := by
  unfold powerOfTwoAbove
  by_cases hSmall : n ≤ 1
  · rw [if_pos hSmall]
    exact hSmall
  · rw [if_neg hSmall, Nat.one_shiftLeft]
    have hBelow : n - 1 < 2 ^ (Nat.log2 (n - 1) + 1) :=
      Nat.lt_log2_self
    omega

------------------------------------------------------------
-- The First Wanted Event
------------------------------------------------------------

/- How many events are read to have the first wanted one. -/
def reach
    (wanted : ε → Bool)
    (events : List ε) : Nat :=
  (events.takeWhile (!wanted ·)).length +
    (if (events.find? wanted).isSome then 1 else 0)

theorem take_reach
    (wanted : ε → Bool)
    (events : List ε) :
    events.take (reach wanted events) =
      events.takeWhile (!wanted ·) ++
        (events.find? wanted).toList := by
  unfold reach
  induction events with
  | nil => rfl
  | cons event events ih =>
      cases hWanted : wanted event with
      | true => simp [hWanted]
      | false =>
          simp only [List.takeWhile_cons, List.find?_cons,
            hWanted, Bool.not_false, if_true,
            List.length_cons, List.cons_append]
          rw [Nat.add_right_comm, List.take_succ_cons, ih]

/- Nothing wanted is passed over. -/
theorem filter_eq_find?_append
    (wanted : ε → Bool)
    (events : List ε) :
    events.filter wanted =
      (events.find? wanted).toList ++
        (events.drop (reach wanted events)).filter wanted := by
  unfold reach
  induction events with
  | nil => rfl
  | cons event events ih =>
      cases hWanted : wanted event with
      | true => simp [hWanted]
      | false =>
          simp only [List.takeWhile_cons, List.find?_cons,
            List.filter_cons, hWanted, Bool.not_false,
            if_true, List.length_cons, Bool.false_eq_true,
            if_false]
          rw [Nat.add_right_comm, List.drop_succ_cons]
          exact ih

theorem reach_of_find?_none
    {wanted : ε → Bool}
    {events : List ε}
    (hNone : events.find? wanted = none) :
    reach wanted events = events.length := by
  have hAll : events.takeWhile (!wanted ·) = events := by
    rw [List.takeWhile_eq_self_iff]
    intro event hEvent
    have hUnwanted := List.find?_eq_none.mp hNone event hEvent
    simpa using hUnwanted
  rw [reach, hAll, hNone]
  rfl

------------------------------------------------------------
-- Entries
------------------------------------------------------------

/- What becomes of an event that a reader leaves behind. -/
inductive Fate where
  | lost
  | passedOver
  | delivered
deriving DecidableEq

/- An event that a reader has left behind. -/
structure Entry (ε : Type) where
  event : ε
  fate : Fate

/- The events delivered among those left behind. -/
def delivered
    (entries : List (Entry ε)) : List ε :=
  (entries.filter (·.fate = .delivered)).map (·.event)

/- How many of those left behind had a fate. -/
def fateCount
    (fate : Fate)
    (entries : List (Entry ε)) : Nat :=
  entries.countP (·.fate = fate)

/- Some events with one fate. -/
def allWith
    (fate : Fate)
    (events : List ε) : List (Entry ε) :=
  events.map fun event => ⟨event, fate⟩

@[simp] theorem events_allWith
    (fate : Fate)
    (events : List ε) :
    (allWith fate events).map (·.event) = events := by
  simp [allWith, Function.comp_def]

theorem fate_of_mem_allWith
    {fate : Fate}
    {events : List ε}
    {entry : Entry ε}
    (hEntry : entry ∈ allWith fate events) :
    entry.fate = fate ∧ entry.event ∈ events := by
  rcases List.mem_map.mp hEntry with ⟨event, hEvent, rfl⟩
  exact ⟨rfl, hEvent⟩

@[simp] theorem length_allWith
    (fate : Fate)
    (events : List ε) :
    (allWith fate events).length = events.length :=
  List.length_map _

theorem delivered_append
    (entries more : List (Entry ε)) :
    delivered (entries ++ more) =
      delivered entries ++ delivered more := by
  simp [delivered]

/- With room for all entries in the ring, none is lost. -/
theorem delivered_of_room
    {journal : List (Entry ε)}
    {slots : Nat}
    (hNotPassed :
      ∀ entry ∈ journal, entry.fate ≠ .passedOver)
    (hLate :
      ∀ i event,
        journal[i]? = some ⟨event, .lost⟩ →
        i + slots < journal.length)
    (hRoom : journal.length ≤ slots) :
    delivered journal = journal.map (·.event) := by
  rw [delivered, List.filter_eq_self.mpr]
  intro entry hEntry
  rcases List.mem_iff_getElem?.mp hEntry with ⟨i, hAt⟩
  rcases entry with ⟨event, fate⟩
  cases fate with
  | delivered => rfl
  | passedOver => exact absurd rfl (hNotPassed _ hEntry)
  | lost =>
      have hEarly := hLate i event hAt
      omega

theorem fateCount_append
    (fate : Fate)
    (entries more : List (Entry ε)) :
    fateCount fate (entries ++ more) =
      fateCount fate entries + fateCount fate more :=
  List.countP_append

theorem delivered_allWith
    (fate : Fate)
    (events : List ε) :
    delivered (allWith fate events) =
      if fate = .delivered then events else [] := by
  by_cases hFate : fate = .delivered <;>
    simp [delivered, allWith, List.filter_map,
      Function.comp_def, hFate]

theorem fateCount_allWith
    (fate other : Fate)
    (events : List ε) :
    fateCount fate (allWith other events) =
      if other = fate then events.length else 0 := by
  by_cases hFate : other = fate <;>
    simp [fateCount, allWith, List.countP_map,
      Function.comp_def, hFate]

/- Every event left behind has exactly one fate. -/
theorem length_eq_fateCounts
    (entries : List (Entry ε)) :
    entries.length =
      fateCount .delivered entries +
        fateCount .passedOver entries +
        fateCount .lost entries := by
  induction entries with
  | nil => rfl
  | cons entry entries ih =>
      rcases entry with ⟨event, fate⟩
      simp only [fateCount, List.countP_cons,
        List.length_cons] at ih ⊢
      cases fate <;> simp <;> omega

theorem length_delivered
    (entries : List (Entry ε)) :
    (delivered entries).length =
      fateCount .delivered entries := by
  rw [delivered, List.length_map, fateCount,
    List.countP_eq_length_filter]

namespace Ring

------------------------------------------------------------
-- Events Behind a Position
------------------------------------------------------------

/- All events pushed from a position on. -/
def since
    (ring : Ring ε)
    (position : Nat) : List ε :=
  ring.events.toList.drop position

/- Those of them that can no longer be read. -/
def overwritten
    (ring : Ring ε)
    (position : Nat) : List ε :=
  (ring.since position).take
    (ring.resume position - position)

@[simp] theorem length_since
    (ring : Ring ε)
    (position : Nat) :
    (ring.since position).length = ring.next - position := by
  rw [since, List.length_drop, Array.length_toList, next]

theorem since_since
    (ring : Ring ε)
    (position n : Nat) :
    (ring.since position).drop n =
      ring.since (position + n) :=
  List.drop_drop

theorem since_push
    {position : Nat}
    (ring : Ring ε)
    (event : ε)
    (hPosition : position ≤ ring.next) :
    (ring.push event).since position =
      ring.since position ++ [event] := by
  rw [since, push, Array.toList_push,
    List.drop_append_of_le_length]
  · rfl
  · rw [Array.length_toList]
    exact hPosition

theorem queue_eq_since
    (ring : Ring ε)
    (position : Nat) :
    ring.queue position =
      ring.since (ring.resume position) := by
  rw [queue, Array.toList_extract, List.extract_eq_take_drop,
    since]
  apply List.take_of_length_le
  rw [List.length_drop, Array.length_toList]
  exact Nat.le_refl _

theorem le_resume
    (ring : Ring ε)
    (position : Nat) : position ≤ ring.resume position :=
  Nat.le_max_left _ _

/- Every event is either overwritten or queued. -/
theorem overwritten_append_queue
    (ring : Ring ε)
    (position : Nat) :
    ring.overwritten position ++ ring.queue position =
      ring.since position := by
  have hStart :
      position + (ring.resume position - position) =
        ring.resume position :=
    Nat.add_sub_cancel' (ring.le_resume position)
  rw [queue_eq_since, ← hStart, ← since_since, overwritten]
  exact List.take_append_drop _ _

theorem length_overwritten
    {position : Nat}
    (ring : Ring ε)
    (hPosition : position ≤ ring.next) :
    (ring.overwritten position).length =
      ring.resume position - position := by
  have hEnd : ring.resume position ≤ ring.next := by
    unfold resume oldest
    omega
  rw [overwritten, List.length_take, length_since]
  omega

------------------------------------------------------------
-- What Is Left Behind
------------------------------------------------------------

/- What a reader leaves behind when it reads on. -/
def record
    (wanted : ε → Bool)
    (ring : Ring ε)
    (position : Nat) : List (Entry ε) :=
  let queue := ring.queue position
  allWith .lost (ring.overwritten position) ++
    allWith .passedOver (queue.takeWhile (!wanted ·)) ++
    allWith .delivered (queue.find? wanted).toList

variable {wanted : ε → Bool}
variable {ring : Ring ε}
variable {position : Nat}

theorem position_receive
    (wanted : ε → Bool)
    (ring : Ring ε)
    (position : Nat) :
    (ring.receive wanted position).position =
      ring.resume position +
        reach wanted (ring.queue position) :=
  Nat.add_assoc _ _ _

theorem events_record
    (wanted : ε → Bool)
    (ring : Ring ε)
    (position : Nat) :
    (ring.record wanted position).map (·.event) =
      ring.overwritten position ++
        (ring.queue position).take
          (reach wanted (ring.queue position)) := by
  simp only [record, List.map_append, events_allWith,
    take_reach, List.append_assoc]

/- Events not left behind come from the new position on. -/
theorem record_append_since
    (wanted : ε → Bool)
    (ring : Ring ε)
    (position : Nat) :
    (ring.record wanted position).map (·.event) ++
        ring.since (ring.receive wanted position).position =
      ring.since position := by
  rw [events_record, position_receive, ← since_since,
    ← queue_eq_since, List.append_assoc,
    List.take_append_drop, overwritten_append_queue]

theorem reach_le_length
    (wanted : ε → Bool)
    (events : List ε) :
    reach wanted events ≤ events.length := by
  have hTake := congrArg List.length (take_reach wanted events)
  have hReach :
      reach wanted events =
        (events.takeWhile (!wanted ·) ++
          (events.find? wanted).toList).length := by
    rw [List.length_append, reach]
    cases events.find? wanted <;> rfl
  rw [List.length_take] at hTake
  omega

theorem length_record
    (wanted : ε → Bool)
    (hPosition : position ≤ ring.next) :
    position + (ring.record wanted position).length =
      (ring.receive wanted position).position := by
  have hEvents := congrArg List.length
    (events_record wanted ring position)
  have hReach := reach_le_length wanted (ring.queue position)
  have hStart := ring.le_resume position
  rw [List.length_map, List.length_append,
    length_overwritten ring hPosition,
    List.length_take] at hEvents
  rw [position_receive]
  omega

/- Exactly what is received is delivered. -/
theorem delivered_record
    (wanted : ε → Bool)
    (ring : Ring ε)
    (position : Nat) :
    delivered (ring.record wanted position) =
      (ring.receive wanted position).event.toList := by
  simp [record, delivered_append, delivered_allWith, receive]

/- Exactly the overwritten events count as lost. -/
theorem lost_record
    (wanted : ε → Bool)
    (hPosition : position ≤ ring.next) :
    fateCount .lost (ring.record wanted position) =
      (ring.receive wanted position).lost := by
  simp [record, fateCount_append, fateCount_allWith, receive,
    length_overwritten ring hPosition]

theorem wanted_of_record
    {entry : Entry ε}
    (hEntry : entry ∈ ring.record wanted position) :
    (entry.fate = .delivered → wanted entry.event) ∧
      (entry.fate = .passedOver → ¬ wanted entry.event) := by
  simp only [record, List.mem_append] at hEntry
  rcases hEntry with (hLost | hPassed) | hDelivered
  · rcases fate_of_mem_allWith hLost with ⟨hFate, -⟩
    simp [hFate]
  · rcases fate_of_mem_allWith hPassed with ⟨hFate, hEvent⟩
    have hUnwanted := List.mem_takeWhile_imp hEvent
    refine ⟨by simp [hFate], fun _ => by simpa using hUnwanted⟩
  · rcases fate_of_mem_allWith hDelivered with
      ⟨hFate, hEvent⟩
    rw [Option.mem_toList] at hEvent
    exact ⟨fun _ => List.find?_some hEvent, by simp [hFate]⟩

/- An event is lost only behind as many as the ring holds. -/
theorem late_of_lost
    {i : Nat}
    {event : ε}
    (hPosition : position ≤ ring.next)
    (hEntry :
      (ring.record wanted position)[i]? =
        some ⟨event, .lost⟩) :
    position + i + ring.slots < ring.next := by
  have hFirst : i < (ring.overwritten position).length := by
    by_contra hLater
    rw [record, List.append_assoc,
      List.getElem?_append_right (by simpa using hLater)]
      at hEntry
    have hMem := List.mem_of_getElem? hEntry
    rcases List.mem_append.mp hMem with hPassed | hDelivered
    · cases (fate_of_mem_allWith hPassed).1
    · cases (fate_of_mem_allWith hDelivered).1
  rw [length_overwritten ring hPosition] at hFirst
  unfold resume oldest at hFirst
  omega

------------------------------------------------------------
-- What Is Left to Read
------------------------------------------------------------

theorem position_receive_le
    (wanted : ε → Bool)
    (hPosition : position ≤ ring.next) :
    (ring.receive wanted position).position ≤ ring.next := by
  have hReach := reach_le_length wanted (ring.queue position)
  rw [queue_eq_since, length_since] at hReach
  have hEnd : ring.resume position ≤ ring.next := by
    unfold resume oldest
    omega
  rw [position_receive, queue_eq_since]
  omega

/- Who has just read is not behind. -/
theorem resume_receive
    (wanted : ε → Bool)
    (ring : Ring ε)
    (position : Nat) :
    ring.resume (ring.receive wanted position).position =
      (ring.receive wanted position).position := by
  rw [position_receive]
  unfold resume
  omega

theorem overwritten_receive
    (wanted : ε → Bool)
    (ring : Ring ε)
    (position : Nat) :
    ring.overwritten
        (ring.receive wanted position).position = [] := by
  rw [overwritten, resume_receive, Nat.sub_self,
    List.take_zero]

theorem queue_receive
    (wanted : ε → Bool)
    (ring : Ring ε)
    (position : Nat) :
    ring.queue (ring.receive wanted position).position =
      (ring.queue position).drop
        (reach wanted (ring.queue position)) := by
  rw [queue_eq_since, resume_receive, position_receive,
    ← since_since, ← queue_eq_since]

/- The event received is the first that was wanted. -/
theorem filter_queue
    (wanted : ε → Bool)
    (ring : Ring ε)
    (position : Nat) :
    (ring.queue position).filter wanted =
      (ring.receive wanted position).event.toList ++
        (ring.queue
          (ring.receive wanted position).position).filter
            wanted := by
  rw [queue_receive]
  exact filter_eq_find?_append wanted _

/- Who receives nothing has read everything. -/
theorem queue_eq_nil_of_receive
    (hNone : (ring.receive wanted position).event = none) :
    ring.queue (ring.receive wanted position).position =
      [] := by
  rw [queue_receive, reach_of_find?_none hNone,
    List.drop_length]

------------------------------------------------------------
-- Turn by Turn
------------------------------------------------------------

/-
  A reader reads one thing at a time: that it has lost events,
  or an event, after which it stops if the event is wanted.
-/
theorem receive_eq_turn
    (wanted : ε → Bool)
    (ring : Ring ε)
    (position : Nat) :
    ring.receive wanted position =
      if position < ring.oldest then
        let later := ring.receive wanted ring.oldest
        { later with
          lost := ring.oldest - position + later.lost }
      else
        match ring.events[position]? with
        | none => ⟨none, position, 0⟩
        | some event =>
            if wanted event then
              ⟨some event, position + 1, 0⟩
            else
              ring.receive wanted (position + 1) := by
  by_cases hBehind : position < ring.oldest
  · have hResume : ring.resume position = ring.oldest :=
      Nat.max_eq_right (Nat.le_of_lt hBehind)
    have hOldest : ring.resume ring.oldest = ring.oldest :=
      Nat.max_self _
    rw [if_pos hBehind]
    simp only [receive, queue, hResume, hOldest, Nat.sub_self,
      Nat.add_zero]
  · have hResume : ring.resume position = position :=
      Nat.max_eq_left (Nat.le_of_not_lt hBehind)
    have hNext : ring.resume (position + 1) = position + 1 :=
      Nat.max_eq_left (by omega)
    have hQueue :
        ring.queue position =
          ring.events[position]?.toList ++
            ring.queue (position + 1) := by
      rw [queue_eq_since, queue_eq_since, hResume, hNext,
        since, since, List.drop_eq_getElem?_toList_append,
        Array.getElem?_toList]
    rw [if_neg hBehind]
    cases hEvent : ring.events[position]? with
    | none =>
        have hEnd : ring.next ≤ position :=
          Array.getElem?_eq_none_iff.mp hEvent
        have hNothing : ring.queue position = [] := by
          rw [queue_eq_since, hResume,
            ← List.length_eq_zero_iff, length_since]
          omega
        simp [receive, hNothing, hResume]
    | some event =>
        rw [hEvent] at hQueue
        by_cases hWanted : wanted event
        · simp [receive, hQueue, hResume, hWanted]
        · simp [receive, hQueue, hResume, hNext, hWanted]
          omega

end Ring

end DriveMarket
