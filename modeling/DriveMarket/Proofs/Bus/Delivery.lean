import DriveMarket.Proofs.Bus.Runs

/-
  Every event published is accounted for.

  A journal of what a receiver has left behind runs along the
  events published since the receiver was opened, without gap
  or repetition.  Publishing makes those events more; a try to
  receive moves the end of the journal.  What is behind it is
  overwritten or queued, and nothing is overwritten right
  after a try.

  Key definitions include:
    * `Ring.Accounts`
    * `Bus.Delivers`

  Correctness is proven by:
    * `Ring.Accounts.push`
    * `Ring.Accounts.receive`
    * `Bus.accounts_after`
    * `Bus.answers_of_not_open`
    * `Bus.journal_after_nothing`
    * `Bus.subscription_delivers`
-/

namespace DriveMarket

variable {ε : Type}
variable [BusEvent ε]

------------------------------------------------------------
-- Accounts
------------------------------------------------------------

/-
  What a receiver opened at a number of events has left behind
  is in order and complete, and what it says is true.
-/
structure Ring.Accounts
    (first : Nat)
    (journal : List (Entry ε))
    (ring : Ring ε)
    (receiver : Receiver) : Prop where
  -- The entries lead up to the events still to be read.
  complete :
    journal.map (·.event) ++ ring.since receiver.position =
      ring.since first
  position_eq :
    receiver.position = first + journal.length
  position_le : receiver.position ≤ ring.next
  missed_eq :
    receiver.missed = .ofNat (fateCount .lost journal)
  wanted :
    ∀ entry ∈ journal,
      (entry.fate = .delivered →
        receiver.subject.covers entry.event) ∧
      (entry.fate = .passedOver →
        ¬ receiver.subject.covers entry.event)
  -- What is lost had been overwritten.
  late :
    ∀ i event,
      journal[i]? = some ⟨event, .lost⟩ →
      first + i + ring.slots < ring.next

namespace Ring

variable {first : Nat}
variable {journal : List (Entry ε)}
variable {ring : Ring ε}
variable {receiver : Receiver}

omit [BusEvent ε] in
theorem next_push
    (ring : Ring ε)
    (event : ε) :
    (ring.push event).next = ring.next + 1 :=
  Array.size_push _

theorem Accounts.opened
    (ring : Ring ε)
    (subject : Subject) :
    Accounts ring.next [] ring ⟨subject, ring.next, 0⟩ where
  complete := rfl
  position_eq := rfl
  position_le := Nat.le_refl _
  missed_eq := rfl
  wanted := by simp
  late := by simp

theorem Accounts.push
    (hAccounts : Accounts first journal ring receiver)
    (event : ε) :
    Accounts first journal (ring.push event) receiver := by
  have hPosition := hAccounts.position_eq
  have hBound := hAccounts.position_le
  have hNext := ring.next_push event
  refine ⟨?_, hPosition, by omega, hAccounts.missed_eq,
    hAccounts.wanted, ?_⟩
  · rw [since_push ring event hBound,
      since_push ring event (by omega), ← List.append_assoc,
      hAccounts.complete]
  · intro i other hEntry
    have hLate := hAccounts.late i other hEntry
    have hSlots : (ring.push event).slots = ring.slots := rfl
    omega

theorem Accounts.feed
    (hAccounts : Accounts first journal ring receiver)
    (action : Bus.Action ε) :
    Accounts first journal (action.feed ring) receiver := by
  cases action with
  | publish event => exact hAccounts.push event
  | _ => exact hAccounts

theorem Accounts.receive
    (hAccounts : Accounts first journal ring receiver) :
    Accounts first
      (journal ++
        ring.record receiver.subject.covers receiver.position)
      ring (receiver.receive ring).2 := by
  have hPosition := hAccounts.position_eq
  have hBound := hAccounts.position_le
  have hLength :=
    length_record receiver.subject.covers hBound
  constructor
  case complete =>
    rw [List.map_append, List.append_assoc, Receiver.receive,
      record_append_since, hAccounts.complete]
  case position_eq =>
    rw [List.length_append, Receiver.receive]
    dsimp only
    omega
  case position_le => exact position_receive_le _ hBound
  case missed_eq =>
    rw [fateCount_append, lost_record _ hBound,
      UInt64.ofNat_add, ← hAccounts.missed_eq]
    rfl
  case wanted =>
    intro entry hEntry
    rcases List.mem_append.mp hEntry with hOld | hNew
    · exact hAccounts.wanted entry hOld
    · exact wanted_of_record hNew
  case late =>
    intro i event hEntry
    by_cases hOld : i < journal.length
    · rw [List.getElem?_append_left hOld] at hEntry
      exact hAccounts.late i event hEntry
    · rw [List.getElem?_append_right (by omega)] at hEntry
      have hLate := late_of_lost hBound hEntry
      omega

end Ring

------------------------------------------------------------
-- Runs
------------------------------------------------------------

namespace Bus

variable {bus : Bus ε}
variable {number first : Nat}
variable {journal : List (Entry ε)}
variable {receiver : Receiver}

/- An action adds to the journal what its receiver records. -/
theorem accounts_act
    {next : Receiver}
    (action : Action ε)
    (hKnown : number < bus.receivers.length)
    (hReceiver : bus.receiver? number = some receiver)
    (hNext : (bus.act action).receiver? number = some next)
    (hAccounts : bus.ring.Accounts first journal receiver) :
    (bus.act action).ring.Accounts first
        (journal ++
          if action.isTryOf number then
            bus.recordOf number
          else
            [])
        next ∧
      next.subject = receiver.subject := by
  rw [receiver?_act action hKnown, hReceiver,
    Option.bind_some] at hNext
  by_cases hOwn : action.isTryOf number
  · obtain rfl := Action.eq_tryReceive hOwn
    rw [Action.affect, if_pos rfl, Option.some.injEq] at hNext
    subst hNext
    have hRing : (bus.act (.tryReceive number)).ring =
        bus.ring :=
      (tryReceive_shared bus number).1
    rw [hRing, if_pos hOwn, recordOf, hReceiver]
    exact ⟨hAccounts.receive, rfl⟩
  · obtain rfl := Action.eq_of_affect hOwn hNext
    rw [if_neg hOwn, List.append_nil, ring_act]
    refine ⟨?_, rfl⟩
    by_cases hOpen : bus.isOpen
    · rw [if_pos hOpen]
      exact hAccounts.feed action
    · rw [if_neg hOpen]
      exact hAccounts

/- The journal of a run keeps account of every event. -/
theorem accounts_after
    {last : Receiver}
    (actions : List (Action ε))
    (hKnown : number < bus.receivers.length)
    (hReceiver : bus.receiver? number = some receiver)
    (hLast : (bus.after actions).receiver? number = some last)
    (hAccounts : bus.ring.Accounts first journal receiver) :
    (bus.after actions).ring.Accounts first
        (journal ++ bus.journal number actions) last ∧
      last.subject = receiver.subject := by
  induction actions generalizing bus journal receiver with
  | nil =>
      have hSame : some receiver = some last :=
        hReceiver.symm.trans hLast
      cases hSame
      rw [Bus.journal, List.append_nil]
      exact ⟨hAccounts, rfl⟩
  | cons action actions ih =>
      have hThere :
          ((bus.act action).receiver? number).isSome := by
        have hSome := Option.isSome_of_eq_some hLast
        exact ((receiver?_after_isSome_iff actions
          (known_act action hKnown)).mp hSome).1
      rcases Option.isSome_iff_exists.mp hThere with
        ⟨next, hNext⟩
      rcases accounts_act action hKnown hReceiver hNext
          hAccounts with
        ⟨hStep, hSubject⟩
      rcases ih (known_act action hKnown) hNext hLast hStep
        with
        ⟨hRest, hSame⟩
      refine ⟨?_, hSame.trans hSubject⟩
      rw [List.append_assoc] at hRest
      have hJournal :
          bus.journal number (action :: actions) =
            (if action.isTryOf number then
              bus.recordOf number
            else
              []) ++
              (bus.act action).journal number actions := by
        rw [Bus.journal]
        split <;> rfl
      rw [hJournal]
      exact hRest

------------------------------------------------------------
-- Tries
------------------------------------------------------------

theorem after_append
    (bus : Bus ε)
    (actions more : List (Action ε)) :
    bus.after (actions ++ more) =
      (bus.after actions).after more :=
  List.foldl_append

theorem answers_append
    (number : Nat)
    (actions more : List (Action ε))
    (bus : Bus ε) :
    bus.answers number (actions ++ more) =
      bus.answers number actions ++
        (bus.after actions).answers number more := by
  induction actions generalizing bus with
  | nil => rfl
  | cons action actions ih =>
      rw [List.cons_append, answers, answers, ih]
      split <;> rfl

/- A try is answered last. -/
theorem answers_concat_try
    (number : Nat)
    (actions : List (Action ε))
    (bus : Bus ε) :
    bus.answers number (actions ++ [.tryReceive number]) =
      bus.answers number actions ++
        [((bus.after actions).tryReceive number).1] := by
  rw [answers_append]
  simp [answers, Action.isTryOf_self number]

theorem received_append
    (number : Nat)
    (actions more : List (Action ε))
    (bus : Bus ε) :
    bus.received number (actions ++ more) =
      bus.received number actions ++
        (bus.after actions).received number more := by
  rw [received, answers_append, List.filterMap_append]
  rfl

/- The journal is only ever continued. -/
theorem journal_append
    (number : Nat)
    (actions more : List (Action ε))
    (bus : Bus ε) :
    bus.journal number (actions ++ more) =
      bus.journal number actions ++
        (bus.after actions).journal number more := by
  induction actions generalizing bus with
  | nil => rfl
  | cons action actions ih =>
      rw [List.cons_append, Bus.journal, Bus.journal, ih]
      split
      · exact (List.append_assoc _ _ _).symm
      · rfl

/- A receiver that is not dropped is still there. -/
theorem exists_receiver_act
    {action : Action ε}
    (hKnown : number < bus.receivers.length)
    (hReceiver : bus.receiver? number = some receiver)
    (hKept : action ≠ .drop number) :
    ∃ next, (bus.act action).receiver? number = some next := by
  rw [← Option.isSome_iff_exists]
  have hOne := receiver?_after_isSome_iff [action] hKnown
  apply hOne.mpr
  refine ⟨Option.isSome_of_eq_some hReceiver, ?_⟩
  rw [List.mem_singleton]
  exact Ne.symm hKept

theorem drain_eq
    (hReceiver : bus.receiver? number = some receiver) :
    (bus.drain number).1 =
      (bus.ring.queue receiver.position).filter
        receiver.subject.covers := by
  rw [drain, hReceiver]

/- A try on a closed bus takes the first event that waits. -/
theorem tryReceive_of_not_open
    (hReceiver : bus.receiver? number = some receiver)
    (hClosed : bus.isOpen = false) :
    let waiting :=
      (bus.ring.queue receiver.position).filter
        receiver.subject.covers
    let next := (receiver.receive bus.ring).2
    (bus.tryReceive number).1 =
        waiting.head?.elim (.error .closed)
          (fun event => .ok (some event)) ∧
      (bus.ring.queue next.position).filter
          next.subject.covers =
        waiting.tail := by
  intro waiting next
  have hWaiting :
      waiting =
        (receiver.receive bus.ring).1.toList ++
          (bus.ring.queue next.position).filter
            next.subject.covers :=
    Ring.filter_queue _ bus.ring receiver.position
  have hAnswer := answer_eq hReceiver
  rw [hClosed] at hAnswer
  cases hEvent : (receiver.receive bus.ring).1 with
  | some event =>
      rw [hEvent] at hAnswer hWaiting
      rw [hAnswer, hWaiting]
      exact ⟨rfl, rfl⟩
  | none =>
      have hNothing : bus.ring.queue next.position = [] :=
        Ring.queue_eq_nil_of_receive hEvent
      rw [hEvent, hNothing] at hWaiting
      rw [hEvent] at hAnswer
      rw [hAnswer, hWaiting, hNothing]
      exact ⟨rfl, rfl⟩

/-
  On a closed bus, a receiver gets what is queued for it and
  only then is told that the bus is closed.
-/
theorem answers_of_not_open
    (later : List (Action ε))
    (hKnown : number < bus.receivers.length)
    (hReceiver : bus.receiver? number = some receiver)
    (hClosed : bus.isOpen = false)
    (hKept : .drop number ∉ later) :
    let waiting := (bus.drain number).1
    let tries := later.countP (·.isTryOf number)
    bus.answers number later =
      (waiting.take tries).map (fun event => .ok (some event)) ++
        List.replicate (tries - waiting.length)
          (.error .closed) := by
  induction later generalizing bus receiver with
  | nil => simp [answers]
  | cons action later ih =>
      intro waiting tries
      rw [List.mem_cons, not_or] at hKept
      rcases act_of_not_open action hClosed with
        ⟨hRing, hStill⟩
      rcases exists_receiver_act hKnown hReceiver
          (Ne.symm hKept.1) with
        ⟨next, hNext⟩
      have hRest :=
        ih (known_act action hKnown) hNext hStill hKept.2
      rw [drain_eq hNext, hRing] at hRest
      rw [receiver?_act action hKnown, hReceiver,
        Option.bind_some] at hNext
      have hWaiting :
          waiting =
            (bus.ring.queue receiver.position).filter
              receiver.subject.covers :=
        drain_eq hReceiver
      by_cases hOwn : action.isTryOf number
      · have hTries :
            tries =
              later.countP (·.isTryOf number) + 1 :=
          List.countP_cons_of_pos hOwn
        obtain rfl := Action.eq_tryReceive hOwn
        rw [Action.affect, if_pos rfl, Option.some.injEq]
          at hNext
        subst hNext
        rcases tryReceive_of_not_open hReceiver hClosed with
          ⟨hAnswer, hTail⟩
        rw [hTail] at hRest
        rw [answers, if_pos hOwn, hRest, hAnswer, hTries,
          hWaiting]
        cases (bus.ring.queue receiver.position).filter
            receiver.subject.covers with
        | nil => simp [List.replicate_succ]
        | cons event events => simp
      · have hTries :
            tries = later.countP (·.isTryOf number) :=
          List.countP_cons_of_neg hOwn
        obtain rfl := Action.eq_of_affect hOwn hNext
        rw [answers, if_neg hOwn, hRest, hTries, hWaiting]

/- Only a closed bus answers that it is closed. -/
theorem close_mem_of_closed
    (actions : List (Action ε))
    (hOpen : bus.isOpen)
    (hClosed :
      .error .closed ∈ bus.answers number actions) :
    .close ∈ actions := by
  induction actions generalizing bus with
  | nil => cases hClosed
  | cons action actions ih =>
      rw [List.mem_cons]
      by_cases hCloses : action.closes
      · left
        cases action with
        | close => rfl
        | _ => cases hCloses
      · right
        have hStill : (bus.act action).isOpen := by
          rw [isOpen_act, hOpen]
          simpa using hCloses
        apply ih hStill
        rw [answers] at hClosed
        split at hClosed
        · rcases List.mem_cons.mp hClosed with hNow | hLater
          · exfalso
            revert hNow
            cases hReceiver : bus.receiver? number with
            | none => simp [tryReceive, hReceiver]
            | some receiver =>
                simp [answer_eq hReceiver, hOpen]
          · exact hLater
        · exact hClosed

theorem isOpen_after
    (bus : Bus ε)
    (actions : List (Action ε)) :
    (bus.after actions).isOpen ↔
      bus.isOpen ∧ .close ∉ actions := by
  induction actions generalizing bus with
  | nil => simp [after]
  | cons action actions ih =>
      have hStep :
          (bus.after (action :: actions)).isOpen ↔
            (bus.act action).isOpen ∧ .close ∉ actions :=
        ih (bus.act action)
      rw [hStep, isOpen_act, List.mem_cons, not_or,
        Bool.and_eq_true, and_assoc]
      cases action <;> simp [Action.closes]

theorem known_after
    (actions : List (Action ε))
    (hKnown : number < bus.receivers.length) :
    number < (bus.after actions).receivers.length := by
  induction actions generalizing bus with
  | nil => exact hKnown
  | cons action actions ih =>
      exact ih (known_act action hKnown)

/- After a try the receiver has lost nothing unnoticed. -/
theorem queue_after_try
    {actions : List (Action ε)}
    (hKnown : number < bus.receivers.length)
    (hReceiver :
      (bus.after (actions ++ [.tryReceive number])).receiver?
        number = some receiver) :
    let last := bus.after (actions ++ [.tryReceive number])
    let answers :=
      bus.answers number (actions ++ [.tryReceive number])
    last.ring.overwritten receiver.position = [] ∧
      (answers.getLast? = some (.ok none) ∨
        answers.getLast? = some (.error .closed) →
        last.ring.queue receiver.position = []) := by
  intro last given
  have hLast :
      last = (bus.after actions).act (.tryReceive number) :=
    after_append bus actions [.tryReceive number]
  have hGiven :
      given =
        bus.answers number actions ++
          [((bus.after actions).tryReceive number).1] :=
    answers_concat_try number actions bus
  have hThere := known_after actions hKnown
  have hRing : last.ring = (bus.after actions).ring := by
    rw [hLast]
    exact (tryReceive_shared _ number).1
  change last.receiver? number = some receiver at hReceiver
  rw [hLast, receiver?_act (.tryReceive number) hThere]
    at hReceiver
  cases hBefore : (bus.after actions).receiver? number with
  | none =>
      rw [hBefore] at hReceiver
      cases hReceiver
  | some before =>
      rw [hBefore, Option.bind_some, Action.affect, if_pos rfl,
        Option.some.injEq] at hReceiver
      subst hReceiver
      rw [hRing, hGiven, List.getLast?_concat]
      refine ⟨Ring.overwritten_receive _ _ _, ?_⟩
      intro hNothing
      apply Ring.queue_eq_nil_of_receive
      rw [answer_eq hBefore] at hNothing
      by_contra hSome
      have hEvent :
          (before.receive (bus.after actions).ring).1.isNone =
            false :=
        Option.isNone_eq_false_iff.mpr
          (Option.isSome_iff_ne_none.mpr hSome)
      simp only [hEvent, Bool.false_eq_true, false_and,
        if_false, Option.some.injEq, Except.ok.injEq,
        reduceCtorEq, or_false] at hNothing
      exact hSome hNothing

/- A try for nothing leaves nothing queued. -/
theorem queue_after_nothing
    {actions : List (Action ε)}
    {last : Receiver}
    (hKnown : number < bus.receivers.length)
    (hThere :
      ((bus.after actions).receiver? number).isSome)
    (hNothing :
      ((bus.after actions).tryReceive
        number).1.toOption.join = none)
    (hLast :
      (bus.after (actions ++ [.tryReceive number])).receiver?
        number = some last) :
    (bus.after (actions ++ [.tryReceive number])).ring.since
      last.position = [] := by
  rcases queue_after_try hKnown hLast with
    ⟨hOverwritten, hQueue⟩
  rcases Option.isSome_iff_exists.mp hThere with
    ⟨before, hBefore⟩
  have hAnswer := answer_eq hBefore
  rw [answers_concat_try, List.getLast?_concat] at hQueue
  rw [← Ring.overwritten_append_queue, hOverwritten,
    List.nil_append]
  apply hQueue
  rw [hAnswer] at hNothing ⊢
  dsimp only at hNothing ⊢
  split at hNothing
  · rename_i hClosed
    rw [if_pos hClosed]
    exact .inr rfl
  · rename_i hOpen
    have hEvent :
        (before.receive (bus.after actions).ring).1 = none :=
      hNothing
    rw [if_neg hOpen, hEvent]
    exact .inl rfl

------------------------------------------------------------
-- Delivery
------------------------------------------------------------

/-
  What a receiver was told and what it was not, by actions
  that started on a bus right after it was opened.
-/
structure Delivers
    (capacity : Nat)
    (subject : Subject)
    (number : Nat)
    (start : Bus ε)
    (actions : List (Action ε))
    (receiver : Receiver) : Prop where
  subject_eq : receiver.subject = subject
  published_eq :
    (start.after actions).published =
      start.published + (offered actions).length
  -- Each wanted event at most once, in order of publication.
  ordered :
    (start.received number actions).Sublist
      ((offered actions).filter subject.covers)
  -- Every event has a fate, or is overwritten, or is queued.
  complete :
    (start.journal number actions).map (·.event) ++
        (start.after actions).ring.overwritten
          receiver.position ++
        (start.after actions).ring.queue receiver.position =
      offered actions
  delivered_eq :
    delivered (start.journal number actions) =
      start.received number actions
  unwanted :
    ∀ entry ∈ start.journal number actions,
      entry.fate = .passedOver →
      ¬ subject.covers entry.event
  missed_eq :
    receiver.missed =
      .ofNat (fateCount .lost (start.journal number actions))
  -- Right after a try, nothing is left out.
  settled :
    actions.getLast? = some (.tryReceive number) →
    (start.after actions).ring.overwritten
      receiver.position = []
  -- What is missed is counted as long as 64 bits allow.
  accounted :
    actions.getLast? = some (.tryReceive number) →
    (offered actions).length < 0x10000000000000000 →
    (start.received number actions).length +
        fateCount .passedOver (start.journal number actions) +
        receiver.missed.toNat +
        ((start.after actions).ring.queue
          receiver.position).length =
      (offered actions).length
  -- A try without an event leaves nothing queued.
  exhausted :
    actions.getLast? = some (.tryReceive number) →
    (start.answers number actions).getLast? =
        some (.ok none) ∨
      (start.answers number actions).getLast? =
        some (.error .closed) →
    (start.after actions).ring.queue receiver.position = []
  -- What is once recorded stays so.
  continued :
    ∀ more,
      start.journal number actions <+:
        start.journal number (actions ++ more)
  -- What is lost has a full ring of later events behind it.
  late :
    ∀ i event,
      (start.journal number actions)[i]? =
        some ⟨event, .lost⟩ →
      i + capacity < (offered actions).length
  closed :
    .error .closed ∈ start.answers number actions →
    .close ∈ actions
  -- What is queued comes before the bus is called closed.
  drained :
    .close ∈ actions →
    ∀ later,
      .drop number ∉ later →
      (start.after actions).answers number later =
        (((start.after actions).drain number).1.take
            (later.countP (·.isTryOf number))).map
          (fun event => .ok (some event)) ++
        List.replicate
          (later.countP (·.isTryOf number) -
            ((start.after actions).drain number).1.length)
          (.error .closed)

/- A new bus has the slots it was asked for. -/
omit [BusEvent ε] in
theorem ofCapacity?_eq_some
    {capacity : Nat}
    (hBus : ofCapacity? capacity = some bus) :
    0 < capacity ∧
      capacity ≤ bus.ring.slots ∧
      bus.receivers = [] := by
  unfold ofCapacity? at hBus
  split at hBus
  · cases hBus
  · rename_i hCapacity
    cases hBus
    exact ⟨by omega, le_powerOfTwoAbove capacity, rfl⟩

theorem subscribe_act
    (bus : Bus ε)
    (subject : Subject)
    (hOpen : bus.isOpen) :
    let start := bus.act (.subscribe subject)
    start.ring = bus.ring ∧
      start.isOpen ∧
      bus.receivers.length < start.receivers.length ∧
      start.receiver? bus.receivers.length =
        some ⟨subject, bus.ring.next, 0⟩ := by
  intro start
  have hStart : start = bus.subscribe subject :=
    if_pos hOpen
  rw [hStart]
  refine ⟨rfl, hOpen, ?_, ?_⟩
  · rw [subscribe, List.length_append]
    exact Nat.lt_succ_self _
  · rw [receiver?, subscribe, List.getElem?_concat_length]
    rfl

/- Without its receivers a bus has the same events. -/
theorem after_shared
    {quiet : Bus ε}
    (actions : List (Action ε))
    (hRing : quiet.ring = bus.ring)
    (hOpen : quiet.isOpen = bus.isOpen)
    (hNone : quiet.receivers = []) :
    let last := quiet.after (actions.filter (·.isShared))
    last.ring = (bus.after actions).ring ∧
      last.isOpen = (bus.after actions).isOpen ∧
      last.receivers = [] := by
  induction actions generalizing bus quiet with
  | nil => exact ⟨hRing, hOpen, hNone⟩
  | cons action actions ih =>
      intro last
      have hRings := ring_act bus action
      have hOpens := isOpen_act bus action
      by_cases hShared : action.isShared
      · have hLast :
            last =
              (quiet.act action).after
                (actions.filter (·.isShared)) := by
          simp only [last, List.filter_cons_of_pos hShared]
          rfl
        rw [hLast]
        apply ih
        · rw [ring_act, hRing, hOpen, hRings]
        · rw [isOpen_act, hOpen, hOpens]
        · cases action with
          | publish event =>
              rw [act]
              split <;> exact hNone
          | close => exact hNone
          | _ => cases hShared
      · have hLast :
            last =
              quiet.after (actions.filter (·.isShared)) := by
          simp only [last, List.filter_cons_of_neg hShared]
        have hFeed : action.feed bus.ring = bus.ring := by
          cases action with
          | publish event => exact absurd rfl hShared
          | _ => rfl
        have hCloses : action.closes = false := by
          cases action with
          | close => exact absurd rfl hShared
          | _ => rfl
        rw [hLast]
        apply ih
        · rw [hRings, hFeed, ite_self]
          exact hRing
        · rw [hOpens, hCloses]
          exact hOpen.trans (Bool.and_true _).symm
        · exact hNone

/- What was published since is what the ring got since. -/
theorem since_after
    (actions : List (Action ε))
    (hOpen : bus.isOpen) :
    (bus.after actions).ring.since bus.ring.next =
        offered actions ∧
      (bus.after actions).ring.next =
        bus.ring.next + (offered actions).length := by
  have hEvents := events_after actions hOpen
  have hNext : bus.ring.next = bus.ring.events.toList.length :=
    Array.length_toList.symm
  constructor
  · rw [Ring.since, hEvents, hNext]
    exact List.drop_left
  · have hLength := congrArg List.length hEvents
    rw [List.length_append, Array.length_toList,
      Array.length_toList] at hLength
    exact hLength

/-
  Once a try finds nothing, the journal has all events, and
  those that were lost came too early for the ring.
-/
theorem journal_after_nothing
    {actions : List (Action ε)}
    (hOpen : bus.isOpen)
    (hKnown : number < bus.receivers.length)
    (hReceiver : bus.receiver? number = some receiver)
    (hBegin :
      bus.ring.Accounts bus.ring.next [] receiver)
    (hKept : .drop number ∉ actions)
    (hNothing :
      ((bus.after actions).tryReceive
        number).1.toOption.join = none) :
    let tried := actions ++ [.tryReceive number]
    let journal := bus.journal number tried
    journal.map (·.event) = offered tried ∧
      (∀ entry ∈ journal,
        entry.fate = .passedOver →
        ¬ receiver.subject.covers entry.event) ∧
      ∀ i event,
        journal[i]? = some ⟨event, .lost⟩ →
        i + bus.ring.slots < (offered tried).length := by
  intro tried journal
  have hFirst := Option.isSome_of_eq_some hReceiver
  have hBefore :
      ((bus.after actions).receiver? number).isSome :=
    (receiver?_after_isSome_iff _ hKnown).mpr
      ⟨hFirst, hKept⟩
  have hStill :
      ((bus.after tried).receiver? number).isSome := by
    apply (receiver?_after_isSome_iff _ hKnown).mpr
    refine ⟨hFirst, ?_⟩
    rw [List.mem_append, not_or]
    exact ⟨hKept, by simp⟩
  rcases Option.isSome_iff_exists.mp hStill with
    ⟨last, hLast⟩
  rcases accounts_after tried hKnown hReceiver hLast hBegin
    with
    ⟨hAccounts, hSame⟩
  rw [List.nil_append] at hAccounts
  rcases since_after tried hOpen with ⟨hSince, hNext⟩
  have hComplete := hAccounts.complete
  rw [queue_after_nothing hKnown hBefore hNothing hLast,
    List.append_nil, hSince] at hComplete
  refine ⟨hComplete, ?_, ?_⟩
  · intro entry hEntry
    rw [← hSame]
    exact (hAccounts.wanted entry hEntry).2
  · intro i event hEntry
    have hLate := hAccounts.late i event hEntry
    have hSlots := slots_after bus tried
    omega

/- A receiver whose accounts are right delivers. -/
theorem delivers_of_accounts
    {capacity : Nat}
    {start : Bus ε}
    {actions : List (Action ε)}
    (hOpen : start.isOpen)
    (hSlots : capacity ≤ start.ring.slots)
    (hKnown : number < start.receivers.length)
    (hReceiver :
      (start.after actions).receiver? number = some receiver)
    (hAccounts :
      (start.after actions).ring.Accounts start.ring.next
        (start.journal number actions) receiver) :
    Delivers capacity receiver.subject number start actions
      receiver := by
  rcases since_after actions hOpen with ⟨hSince, hNext⟩
  have hDelivered := received_eq_delivered number actions start
  have hComplete := hAccounts.complete
  rw [← Ring.overwritten_append_queue, ← List.append_assoc,
    hSince] at hComplete
  have hSame := slots_after start actions
  constructor
  case subject_eq => rfl
  case published_eq => exact hNext
  case ordered =>
    have hWanted :
        (delivered (start.journal number actions)).filter
            receiver.subject.covers =
          delivered (start.journal number actions) := by
      rw [List.filter_eq_self]
      intro event hEvent
      rcases List.mem_map.mp hEvent with ⟨entry, hEntry, rfl⟩
      rw [List.mem_filter] at hEntry
      exact (hAccounts.wanted entry hEntry.1).1
        (of_decide_eq_true hEntry.2)
    have hPart :
        (delivered (start.journal number actions)).Sublist
          (offered actions) := by
      rw [← hComplete, List.append_assoc]
      exact (List.filter_sublist.map _).trans
        (List.sublist_append_left _ _)
    rw [hDelivered, ← hWanted]
    exact hPart.filter _
  case complete => exact hComplete
  case delivered_eq => exact hDelivered.symm
  case unwanted =>
    intro entry hEntry
    exact (hAccounts.wanted entry hEntry).2
  case missed_eq => exact hAccounts.missed_eq
  case settled =>
    intro hTry
    rcases List.getLast?_eq_some_iff.mp hTry with
      ⟨sooner, rfl⟩
    exact (queue_after_try hKnown hReceiver).1
  case accounted =>
    intro hTry hBound
    rcases List.getLast?_eq_some_iff.mp hTry with
      ⟨sooner, rfl⟩
    have hNothing := (queue_after_try hKnown hReceiver).1
    have hLength := congrArg List.length hComplete
    rw [hNothing, List.append_nil, List.length_append,
      List.length_map, length_eq_fateCounts,
      ← length_delivered, ← hDelivered] at hLength
    have hSmall :
        fateCount .lost
            (start.journal number
              (sooner ++ [.tryReceive number])) <
          UInt64.size :=
      Nat.lt_of_le_of_lt (by omega) hBound
    rw [hAccounts.missed_eq, UInt64.toNat_ofNat_of_lt' hSmall]
    exact hLength
  case exhausted =>
    intro hTry
    rcases List.getLast?_eq_some_iff.mp hTry with
      ⟨sooner, rfl⟩
    exact (queue_after_try hKnown hReceiver).2
  case continued =>
    intro more
    rw [journal_append]
    exact List.prefix_append _ _
  case late =>
    intro i event hEntry
    have hLate := hAccounts.late i event hEntry
    omega
  case closed => exact close_mem_of_closed actions hOpen
  case drained =>
    intro hClose later hKept
    apply answers_of_not_open later
      (known_after actions hKnown) hReceiver
    · rw [Bool.eq_false_iff, ne_eq, isOpen_after]
      exact fun hStill => hStill.2 hClose
    · exact hKept

/-
  A receiver that is not dropped is delivered what it wants of
  everything published since it was opened, except for what is
  overwritten, and is told how much that was.  It gets the
  same from a bus on which it is the only receiver.
-/
theorem subscription_delivers
    {capacity : Nat}
    (hBus : ofCapacity? capacity = some bus)
    (earlier : List (Action ε))
    (subject : Subject)
    (actions : List (Action ε))
    (hOpen : (bus.after earlier).isOpen)
    (hKept :
      .drop (bus.after earlier).receivers.length ∉ actions) :
    let number := (bus.after earlier).receivers.length
    let start := (bus.after earlier).act (.subscribe subject)
    let quiet :=
      (bus.after (earlier.filter (·.isShared))).act
        (.subscribe subject)
    let own := actions.filterMap (·.alone number)
    quiet.answers 0 own = start.answers number actions ∧
      ∃ receiver,
        (start.after actions).receiver? number =
          some receiver ∧
        (quiet.after own).receiver? 0 = some receiver ∧
        Delivers capacity subject number start actions
          receiver := by
  intro number start quiet own
  rcases ofCapacity?_eq_some hBus with ⟨-, hSlots, hNone⟩
  rcases subscribe_act (bus.after earlier) subject hOpen with
    ⟨hRing, hStart, hKnown, hFirst⟩
  -- The lone receiver starts out the same.
  rcases after_shared earlier rfl rfl hNone with
    ⟨hQuietRing, hQuietOpen, hQuietNone⟩
  rcases subscribe_act (bus.after (earlier.filter (·.isShared)))
      subject (hQuietOpen.trans hOpen) with
    ⟨hRing', hStart', hKnown', hFirst'⟩
  rw [hQuietNone, List.length_nil] at hKnown' hFirst'
  have hHides : Hides number start quiet := by
    refine ⟨?_, hStart'.trans hStart.symm, ?_, hKnown,
      hKnown'⟩
    · rw [hRing, hRing', hQuietRing]
    · rw [hFirst, hFirst', hQuietRing]
  rcases hHides.after actions with ⟨hAnswers, hAfter⟩
  refine ⟨hAnswers, ?_⟩
  -- What it has seen is kept account of from there on.
  have hThere :
      ((start.after actions).receiver? number).isSome :=
    (receiver?_after_isSome_iff actions hKnown).mpr
      ⟨Option.isSome_of_eq_some hFirst, hKept⟩
  rcases Option.isSome_iff_exists.mp hThere with
    ⟨receiver, hReceiver⟩
  have hBegin :
      start.ring.Accounts start.ring.next []
        ⟨subject, (bus.after earlier).ring.next, 0⟩ := by
    rw [hRing]
    exact Ring.Accounts.opened _ subject
  rcases accounts_after actions hKnown hFirst hReceiver hBegin
    with
    ⟨hAccounts, hSubject⟩
  rw [List.nil_append] at hAccounts
  have hEnough : capacity ≤ start.ring.slots := by
    rw [hRing, slots_after]
    exact hSlots
  have hDelivers :=
    delivers_of_accounts hStart hEnough hKnown hReceiver
      hAccounts
  rw [hSubject] at hDelivers
  exact ⟨receiver, hReceiver,
    hAfter.receiver_eq.trans hReceiver, hDelivers⟩

/- Numbers, as events with one key if even and one if odd. -/
local instance parityEvent : BusEvent Nat where
  key n :=
    ⟨List.replicate 32 (UInt8.ofNat (n % 2)),
      List.length_replicate⟩
  topic := "numbers"

/-
  A ring of four slots was asked to hold three events.  Of six
  numbers two are lost before the odd ones are asked for, and
  two even ones are passed over.
-/
theorem subscription_delivers_odd :
    let odd : Subject := ⟨[BusEvent.key 1]⟩
    let earlier : List (Action Nat) :=
      [.subscribe .all, .publish 1, .tryReceive 0]
    let actions : List (Action Nat) :=
      [.publish 2, .publish 3, .publish 4, .publish 5,
        .publish 6, .publish 7, .tryReceive 1, .tryReceive 0,
        .publish 8, .drop 0, .tryReceive 1]
    ∃ bus,
      ofCapacity? 3 = some bus ∧
      (bus.after earlier).isOpen ∧
      (bus.after earlier).receivers.length = 1 ∧
      .drop 1 ∉ actions ∧
      ∃ receiver,
        Delivers 3 odd 1
          ((bus.after earlier).act (.subscribe odd)) actions
          receiver ∧
        ((bus.after earlier).act (.subscribe odd)).received 1
          actions = [5, 7] ∧
        receiver.missed = 2 := by
  intro odd earlier actions
  let bus : Bus Nat := ⟨3, .ofCapacity 3, [], true⟩
  have hBus : ofCapacity? 3 = some bus := rfl
  have hKept : .drop 1 ∉ actions := by
    simp [actions]
  rcases subscription_delivers hBus earlier odd actions rfl
      hKept with
    ⟨-, receiver, hReceiver, -, hDelivers⟩
  refine ⟨bus, hBus, rfl, rfl, hKept, receiver, hDelivers,
    by decide +kernel, ?_⟩
  have hMissed :
      some receiver.missed = some 2 := by
    rw [← Option.map_some, ← hReceiver]
    decide +kernel
  exact Option.some.inj hMissed

end Bus

end DriveMarket
