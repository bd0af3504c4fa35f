import DriveMarket.Bus.Dispatcher
import DriveMarket.Proofs.Bus.Delivery
import DriveMarket.Proofs.Bus.Handling

/-
  Dispatchers hand the events of a bus to its handlers.

  In a turn, what a dispatcher does to the bus is to try to
  receive, and what it does to the handlers is to dispatch
  what it received.  A run of a switchboard is therefore a run
  of its bus and one of its handlers, whoever has turns when.
  What a dispatcher forwards is what its receiver is given: in
  order, and all that is not lost once a turn ends by itself.

  Key definitions include:
    * `Switchboard.Move`
    * `Switchboard.turnOnBus`
    * `Switchboard.busRun`
    * `Switchboard.handlersRun`
    * `Switchboard.forwarded`

  Correctness is proven by:
    * `Switchboard.forward_eq`
    * `Switchboard.after_eq`
    * `Switchboard.forwarded_eq_received`
    * `Switchboard.forwarded_in_order`
    * `Switchboard.forwarded_of_turn`
-/

namespace DriveMarket

variable {ε : Type}

namespace Switchboard

------------------------------------------------------------
-- Moves
------------------------------------------------------------

/-
  What can be done to a switchboard: something to its bus or
  to its handlers, or a turn of a dispatcher.
-/
inductive Move (ε : Type) where
  | bus (action : Bus.Action ε)
  | handlers (action : Handlers.Action ε)
  | turn (number limit : Nat)

/- Whether a move leaves a receiver to its dispatcher. -/
def Move.spares
    (number : Nat) : Move ε → Bool
  | .bus (.tryReceive n) => n ≠ number
  | .bus (.drop n) => n ≠ number
  | _ => true

variable [BusEvent ε]

/- The switchboard after a move. -/
def act
    (board : Switchboard ε) : Move ε → Switchboard ε
  | .bus action => { board with bus := board.bus.act action }
  | .handlers action =>
      { board with handlers := board.handlers.act action }
  | .turn number limit => (board.forward number limit).2

/- The switchboard after some moves. -/
def after
    (board : Switchboard ε)
    (moves : List (Move ε)) : Switchboard ε :=
  moves.foldl act board

/- The calls that a move makes, as ids with the event. -/
def callsBy
    (board : Switchboard ε) : Move ε → List (UInt64 × ε)
  | .bus _ => []
  | .handlers action => board.handlers.callsBy action
  | .turn number limit => (board.forward number limit).1.calls

/- The calls that some moves make. -/
def calls :
    List (Move ε) →
    Switchboard ε →
    List (UInt64 × ε)
  | [], _ => []
  | move :: moves, board =>
      board.callsBy move ++ calls moves (board.act move)

------------------------------------------------------------
-- Runs of the Parts
------------------------------------------------------------

/- What a turn does to the bus. -/
def turnOnBus
    (number : Nat) :
    (limit : Nat) →
    (bus : Bus ε) →
    List (Bus.Action ε)
  | 0, _ => []
  | limit + 1, bus =>
      .tryReceive number ::
        match bus.tryReceive number with
        | (.ok (some _), bus) => turnOnBus number limit bus
        | (.ok none, _) => []
        | (.error _, _) => [.drop number]

/- The events that a turn receives. -/
def turnEvents
    (number limit : Nat)
    (bus : Bus ε) : List ε :=
  bus.received number (turnOnBus number limit bus)

/- What a move does to the bus. -/
def onBus
    (board : Switchboard ε) : Move ε → List (Bus.Action ε)
  | .bus action => [action]
  | .handlers _ => []
  | .turn number limit => turnOnBus number limit board.bus

/- What a move does to the handlers. -/
def onHandlers
    (board : Switchboard ε) :
    Move ε →
    List (Handlers.Action ε)
  | .bus _ => []
  | .handlers action => [action]
  | .turn number limit =>
      (turnEvents number limit board.bus).map .dispatch

/- The events that a move has one dispatcher forward. -/
def forwardedBy
    (number : Nat)
    (board : Switchboard ε) : Move ε → List ε
  | .turn n limit =>
      if n = number then
        turnEvents number limit board.bus
      else
        []
  | _ => []

/- What some moves do to the bus. -/
def busRun :
    List (Move ε) →
    Switchboard ε →
    List (Bus.Action ε)
  | [], _ => []
  | move :: moves, board =>
      board.onBus move ++ busRun moves (board.act move)

/- What some moves do to the handlers. -/
def handlersRun :
    List (Move ε) →
    Switchboard ε →
    List (Handlers.Action ε)
  | [], _ => []
  | move :: moves, board =>
      board.onHandlers move ++
        handlersRun moves (board.act move)

/- The events that some moves have one dispatcher forward. -/
def forwarded
    (number : Nat) :
    List (Move ε) →
    Switchboard ε →
    List ε
  | [], _ => []
  | move :: moves, board =>
      board.forwardedBy number move ++
        forwarded number moves (board.act move)

------------------------------------------------------------
-- Turns
------------------------------------------------------------

/-
  How a turn goes, try by try: what it does to the bus, the
  events it receives, and how it ends.
-/
inductive Goes
    (number : Nat) :
    (limit : Nat) →
    (board : Switchboard ε) →
    (actions : List (Bus.Action ε)) →
    (events : List ε) →
    (ended : Turn ε × Switchboard ε) → Prop where
  | gaveWay {board : Switchboard ε} :
      Goes number 0 board [] [] (⟨[], .gaveWay⟩, board)
  | received {limit board bus event actions events ended} :
      board.bus.tryReceive number = (.ok (some event), bus) →
      Goes number limit
        ⟨bus, board.handlers.act (.dispatch event)⟩ actions
        events ended →
      Goes number (limit + 1) board
        (.tryReceive number :: actions) (event :: events)
        (⟨board.handlers.callsBy (.dispatch event) ++
            ended.1.calls, ended.1.ending⟩, ended.2)
  | waiting {limit board bus} :
      board.bus.tryReceive number = (.ok none, bus) →
      Goes number (limit + 1) board [.tryReceive number] []
        (⟨[], .waiting⟩, ⟨bus, board.handlers⟩)
  | finished {limit board bus cause} :
      board.bus.tryReceive number = (.error cause, bus) →
      Goes number (limit + 1) board
        [.tryReceive number, .drop number] []
        (⟨[], .finished⟩, ⟨bus.drop number, board.handlers⟩)

/- Every turn goes like that. -/
theorem goes_forward
    (number limit : Nat)
    (board : Switchboard ε) :
    ∃ events,
      Goes number limit board
        (turnOnBus number limit board.bus) events
        (board.forward number limit) := by
  induction limit generalizing board with
  | zero => exact ⟨[], .gaveWay⟩
  | succ limit ih =>
      cases hTry : board.bus.tryReceive number with
      | mk answer bus =>
          simp only [turnOnBus, forward, hTry]
          cases answer with
          | error cause => exact ⟨[], .finished hTry⟩
          | ok event? =>
              cases event? with
              | none => exact ⟨[], .waiting hTry⟩
              | some event =>
                  rcases ih ⟨bus,
                      board.handlers.act (.dispatch event)⟩
                    with
                    ⟨events, hRest⟩
                  exact ⟨event :: events, .received hTry hRest⟩

namespace Goes

variable {number limit : Nat}
variable {board : Switchboard ε}
variable {actions : List (Bus.Action ε)}
variable {events : List ε}
variable {ended : Turn ε × Switchboard ε}

/- The events are those that the receiver is given. -/
theorem events_eq
    (hGoes : Goes number limit board actions events ended) :
    board.bus.received number actions = events := by
  induction hGoes with
  | gaveWay => rfl
  | @received _ board bus event actions _ _ hTry _ ih =>
      rw [Bus.received_of_tryReceive actions hTry, ih]
      rfl
  | waiting hTry => exact Bus.received_of_tryReceive _ hTry
  | finished hTry => exact Bus.received_of_tryReceive _ hTry

/- Bus and handlers have been through what was done to them. -/
theorem ended_eq
    (hGoes : Goes number limit board actions events ended) :
    ended.2 =
        ⟨board.bus.after actions,
          board.handlers.after (events.map .dispatch)⟩ ∧
      ended.1.calls =
        board.handlers.calls (events.map .dispatch) := by
  induction hGoes with
  | gaveWay => exact ⟨rfl, rfl⟩
  | @received _ board bus event actions _ _ hTry _ ih =>
      rcases ih with ⟨hLast, hCalls⟩
      refine ⟨?_, ?_⟩
      · rw [hLast, ← Bus.act_of_tryReceive hTry]
        rfl
      · exact congrArg (_ ++ ·) hCalls
  | @waiting _ board bus hTry =>
      rw [← Bus.act_of_tryReceive hTry]
      exact ⟨rfl, rfl⟩
  | @finished _ board bus _ hTry =>
      rw [← Bus.act_of_tryReceive hTry]
      exact ⟨rfl, rfl⟩

/- A turn has nothing to do with the bus but its receiver. -/
theorem eq_of_mem_actions
    (hGoes : Goes number limit board actions events ended) :
    ∀ action ∈ actions,
      action = .tryReceive number ∨
        action = .drop number := by
  induction hGoes with
  | gaveWay => simp
  | received _ _ ih =>
      intro action hMem
      rcases List.mem_cons.mp hMem with rfl | hRest
      · exact .inl rfl
      · exact ih action hRest
  | waiting _ => simp
  | finished _ => simp

/- A turn that ends by itself ends with a try for nothing. -/
theorem exists_last_try
    (hGoes : Goes number limit board actions events ended)
    (hEnd : ended.1.ending ≠ .gaveWay) :
    ∃ sooner rest,
      actions = sooner ++ .tryReceive number :: rest ∧
      .drop number ∉ sooner ∧
      (rest = [] ∨ rest = [.drop number]) ∧
      ((board.bus.after sooner).tryReceive
        number).1.toOption.join = none := by
  induction hGoes with
  | gaveWay => exact absurd rfl hEnd
  | @received _ board bus event actions _ _ hTry _ ih =>
      rcases ih hEnd with
        ⟨sooner, rest, rfl, hKept, hRest, hNothing⟩
      refine ⟨.tryReceive number :: sooner, rest, rfl, ?_,
        hRest, ?_⟩
      · simpa using hKept
      · rw [← Bus.act_of_tryReceive hTry] at hNothing
        exact hNothing
  | waiting hTry =>
      refine ⟨[], [], rfl, by simp, .inl rfl, ?_⟩
      exact congrArg (fun told => told.1.toOption.join) hTry
  | finished hTry =>
      refine ⟨[], [.drop number], rfl, by simp, .inr rfl, ?_⟩
      exact congrArg (fun told => told.1.toOption.join) hTry

end Goes

/- A turn tries to receive, and dispatches what it received. -/
theorem forward_eq
    (number limit : Nat)
    (board : Switchboard ε) :
    let actions := turnOnBus number limit board.bus
    let events := turnEvents number limit board.bus
    (board.forward number limit).2 =
        ⟨board.bus.after actions,
          board.handlers.after (events.map .dispatch)⟩ ∧
      (board.forward number limit).1.calls =
        board.handlers.calls (events.map .dispatch) := by
  rcases goes_forward number limit board with ⟨events, hGoes⟩
  rw [turnEvents, hGoes.events_eq]
  exact hGoes.ended_eq

------------------------------------------------------------
-- Runs
------------------------------------------------------------

theorem act_eq
    (board : Switchboard ε)
    (move : Move ε) :
    board.act move =
        ⟨board.bus.after (board.onBus move),
          board.handlers.after (board.onHandlers move)⟩ ∧
      board.callsBy move =
        board.handlers.calls (board.onHandlers move) := by
  cases move with
  | bus action => exact ⟨rfl, rfl⟩
  | handlers action =>
      exact ⟨rfl, (List.append_nil _).symm⟩
  | turn number limit => exact forward_eq number limit board

/-
  A run of a switchboard is a run of its bus and a run of its
  handlers, which makes all the calls.
-/
theorem after_eq
    (board : Switchboard ε)
    (moves : List (Move ε)) :
    board.after moves =
        ⟨board.bus.after (board.busRun moves),
          board.handlers.after (board.handlersRun moves)⟩ ∧
      board.calls moves =
        board.handlers.calls (board.handlersRun moves) := by
  induction moves generalizing board with
  | nil => exact ⟨rfl, rfl⟩
  | cons move moves ih =>
      rcases act_eq board move with ⟨hAct, hCalls⟩
      rcases ih (board.act move) with ⟨hLast, hRest⟩
      have hBus :
          (board.act move).bus =
            board.bus.after (board.onBus move) :=
        congrArg Switchboard.bus hAct
      have hHandlers :
          (board.act move).handlers =
            board.handlers.after (board.onHandlers move) :=
        congrArg Switchboard.handlers hAct
      rw [hBus, hHandlers] at hLast
      rw [hHandlers] at hRest
      refine ⟨?_, ?_⟩
      · rw [busRun, handlersRun, Bus.after_append,
          Handlers.after, List.foldl_append]
        exact hLast
      · rw [calls, handlersRun, Handlers.calls_append,
          hCalls, hRest]

------------------------------------------------------------
-- What Is Forwarded
------------------------------------------------------------

variable {number : Nat}

theorem forwardedBy_eq_received
    {move : Move ε}
    (board : Switchboard ε)
    (hSpares : move.spares number) :
    board.forwardedBy number move =
      board.bus.received number (board.onBus move) := by
  cases move with
  | bus action =>
      refine (Bus.received_of_no_try _ ?_).symm
      intro other hMem
      rw [onBus, List.mem_singleton] at hMem
      subst hMem
      cases other with
      | tryReceive n =>
          simpa [Bus.Action.isTryOf, Move.spares] using hSpares
      | _ => simp [Bus.Action.isTryOf]
  | handlers action => rfl
  | turn n limit =>
      by_cases hThis : n = number
      · subst hThis
        exact if_pos rfl
      · rcases goes_forward n limit board with ⟨_, hGoes⟩
        refine (if_neg hThis).trans
          (Bus.received_of_no_try _ ?_).symm
        intro action hMem
        rcases hGoes.eq_of_mem_actions action hMem with
          rfl | rfl
        · simpa [Bus.Action.isTryOf] using hThis
        · simp [Bus.Action.isTryOf]

/- A dispatcher forwards what its receiver is given. -/
theorem forwarded_eq_received
    (board : Switchboard ε)
    (moves : List (Move ε))
    (hSpares : ∀ move ∈ moves, move.spares number) :
    board.forwarded number moves =
      board.bus.received number (board.busRun moves) := by
  induction moves generalizing board with
  | nil => rfl
  | cons move moves ih =>
      rw [List.forall_mem_cons] at hSpares
      have hBus :
          (board.act move).bus =
            board.bus.after (board.onBus move) :=
        congrArg Switchboard.bus (act_eq board move).1
      rw [forwarded, busRun, Bus.received_append, ← hBus,
        forwardedBy_eq_received board hSpares.1,
        ih (board.act move) hSpares.2]

theorem busRun_append
    (board : Switchboard ε)
    (moves more : List (Move ε)) :
    board.busRun (moves ++ more) =
      board.busRun moves ++
        (board.after moves).busRun more := by
  induction moves generalizing board with
  | nil => rfl
  | cons move moves ih =>
      rw [List.cons_append, busRun, busRun, ih,
        List.append_assoc]
      rfl

/- What a dispatcher has when it is opened. -/
theorem openDispatcher_spec
    (board : Switchboard ε)
    (hOpen : board.bus.isOpen) :
    let number := board.bus.receivers.length
    let start := board.openDispatcher
    start.bus.isOpen ∧
      number < start.bus.receivers.length ∧
      ∃ receiver,
        start.bus.receiver? number = some receiver ∧
        receiver.subject = .all ∧
        start.bus.ring.Accounts start.bus.ring.next []
          receiver := by
  rcases Bus.subscribe_act board.bus .all hOpen with
    ⟨hRing, hStart, hKnown, hFirst⟩
  have hBus :
      board.bus.act (.subscribe .all) =
        board.bus.subscribe .all :=
    if_pos hOpen
  rw [hBus] at hRing hStart hKnown hFirst
  exact ⟨hStart, hKnown, _, hFirst, rfl,
    Ring.Accounts.opened _ .all⟩

/-
  A dispatcher forwards events in the order in which they are
  published, each at most once.
-/
theorem forwarded_in_order
    (board : Switchboard ε)
    (moves : List (Move ε))
    (hOpen : board.bus.isOpen)
    (hSpares :
      ∀ move ∈ moves, move.spares board.bus.receivers.length) :
    let number := board.bus.receivers.length
    let start := board.openDispatcher
    (start.forwarded number moves).Sublist
      (Bus.offered (start.busRun moves)) := by
  intro number start
  rcases board.openDispatcher_spec hOpen with
    ⟨hStart, hKnown, receiver, hReceiver, -, hBegin⟩
  rw [forwarded_eq_received start moves hSpares]
  generalize start.busRun moves = actions
  -- While it is there, its journal tells what it was given.
  have hThere :
      ∀ sooner,
        .drop number ∉ sooner →
        (start.bus.received number sooner).Sublist
          (Bus.offered sooner) := by
    intro sooner hKept
    have hSome :=
      (Bus.receiver?_after_isSome_iff sooner hKnown).mpr
        ⟨Option.isSome_of_eq_some hReceiver, hKept⟩
    rcases Option.isSome_iff_exists.mp hSome with
      ⟨last, hLast⟩
    have hAccounts :=
      (Bus.accounts_after sooner hKnown hReceiver hLast
        hBegin).1
    have hComplete := hAccounts.complete
    rw [(Bus.since_after sooner hStart).1] at hComplete
    rw [Bus.received_eq_delivered, ← hComplete]
    exact (List.filter_sublist.map _).trans
      (List.sublist_append_left _ _)
  by_cases hDrop : .drop number ∈ actions
  · rcases List.eq_append_cons_of_mem hDrop with
      ⟨sooner, later, rfl, hKept⟩
    have hGone :
        ((start.bus.after sooner).drop number).receiver?
          number = none := by
      rw [Bus.receiver?, Bus.drop,
        List.getElem?_set_self (Bus.known_after sooner hKnown)]
      rfl
    have hNothing :
        (start.bus.after sooner).received number
          (.drop number :: later) = [] := by
      rw [Bus.received_cons]
      exact Bus.received_of_dropped later
        (Bus.known_act (.drop number)
          (Bus.known_after sooner hKnown)) hGone
    rw [Bus.received_append, hNothing, List.append_nil]
    exact (hThere sooner hKept).trans
      (Bus.offered_prefix sooner _).sublist
  · exact hThere actions hDrop

/-
  When a turn of a dispatcher ends by itself, every event that
  was published since it was opened has been forwarded, or was
  lost with a full ring of later events behind it.  If the
  ring has room for all of them, none is lost.
-/
theorem forwarded_of_turn
    (board : Switchboard ε)
    (moves : List (Move ε))
    (limit : Nat)
    (hOpen : board.bus.isOpen)
    (hSpares :
      ∀ move ∈ moves, move.spares board.bus.receivers.length)
    (hThere :
      ((board.openDispatcher.after moves).bus.receiver?
        board.bus.receivers.length).isSome)
    (hEnd :
      ((board.openDispatcher.after moves).forward
        board.bus.receivers.length limit).1.ending ≠
          .gaveWay) :
    let number := board.bus.receivers.length
    let start := board.openDispatcher
    let all := moves ++ [.turn number limit]
    let journal := start.bus.journal number (start.busRun all)
    let published := Bus.offered (start.busRun all)
    journal.map (·.event) = published ∧
      delivered journal = start.forwarded number all ∧
      (∀ entry ∈ journal, entry.fate ≠ .passedOver) ∧
      (∀ i event,
        journal[i]? = some ⟨event, .lost⟩ →
        i + start.bus.ring.slots < published.length) ∧
      (published.length ≤ start.bus.ring.slots →
        start.forwarded number all = published) := by
  intro number start all journal published
  rcases board.openDispatcher_spec hOpen with
    ⟨hStart, hKnown, receiver, hReceiver, hSubject, hBegin⟩
  rcases goes_forward number limit (start.after moves) with
    ⟨_, hGoes⟩
  rcases hGoes.exists_last_try hEnd with
    ⟨sooner, rest, hTurn, hKept, hRest, hNothing⟩
  have hBus :
      (start.after moves).bus =
        start.bus.after (start.busRun moves) :=
    congrArg Switchboard.bus (after_eq start moves).1
  rw [hBus] at hThere hNothing
  rw [← Bus.after_append] at hNothing
  have hNoDrop :
      .drop number ∉ start.busRun moves ++ sooner := by
    rw [List.mem_append, not_or]
    exact ⟨((Bus.receiver?_after_isSome_iff _ hKnown).mp
      hThere).2, hKept⟩
  rcases Bus.journal_after_nothing hStart hKnown hReceiver hBegin
      hNoDrop hNothing with
    ⟨hComplete, hWanted, hLate⟩
  -- What comes behind the last try adds nothing.
  have hRun :
      start.busRun all =
        (start.busRun moves ++ sooner ++
          [.tryReceive number]) ++ rest := by
    have hLast :
        (start.after moves).busRun [.turn number limit] =
          sooner ++ .tryReceive number :: rest :=
      (List.append_nil _).trans hTurn
    rw [busRun_append, hLast]
    simp
  have hPublished :
      published =
        Bus.offered
          (start.busRun moves ++ sooner ++
            [.tryReceive number]) := by
    refine (congrArg Bus.offered hRun).trans
      (Bus.offered_append_quiet ?_)
    rcases hRest with rfl | rfl <;>
      simp [Bus.Action.isShared]
  have hJournal :
      journal =
        start.bus.journal number
          (start.busRun moves ++ sooner ++
            [.tryReceive number]) := by
    refine (congrArg (start.bus.journal number ·) hRun).trans
      ?_
    rw [Bus.journal_append]
    rcases hRest with rfl | rfl <;> exact List.append_nil _
  have hAllSpared : ∀ move ∈ all, move.spares number := by
    rw [List.forall_mem_append]
    exact ⟨hSpares, List.forall_mem_singleton.mpr rfl⟩
  have hAll : journal.map (·.event) = published := by
    rw [hJournal, hPublished]
    exact hComplete
  have hDelivered :
      delivered journal = start.forwarded number all := by
    rw [forwarded_eq_received start all hAllSpared]
    exact (Bus.received_eq_delivered _ _ _).symm
  have hNotPassed :
      ∀ entry ∈ journal, entry.fate ≠ .passedOver := by
    intro entry hEntry hPassed
    rw [hJournal] at hEntry
    apply hWanted entry hEntry hPassed
    rw [hSubject]
    rfl
  have hEarly :
      ∀ i event,
        journal[i]? = some ⟨event, .lost⟩ →
        i + start.bus.ring.slots < published.length := by
    rw [hJournal, hPublished]
    exact hLate
  refine ⟨hAll, hDelivered, hNotPassed, hEarly, ?_⟩
  intro hRoom
  rw [← hDelivered, ← hAll]
  have hLength : journal.length = published.length := by
    rw [← hAll, List.length_map]
  rw [← hLength] at hEarly hRoom
  exact delivered_of_room hNotPassed hEarly hRoom

end Switchboard

end DriveMarket
