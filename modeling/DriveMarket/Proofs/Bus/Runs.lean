import DriveMarket.Proofs.Bus.Receiving

/-
  Runs of a bus.

  Actions of many receivers and of those who publish are
  interleaved.  What an action does to one receiver depends on
  that receiver and on the ring, and on no other receiver; and
  the ring depends on what was published alone.

  Key definitions include:
    * `Bus.Action`
    * `Bus.after`
    * `Bus.offered`
    * `Bus.answers`
    * `Bus.received`
    * `Bus.journal`
    * `Bus.Action.alone`

  Correctness is proven by:
    * `Bus.ring_act`
    * `Bus.events_after`
    * `Bus.receiver?_act`
    * `Bus.receiver?_after_isSome_iff`
    * `Bus.received_eq_delivered`
    * `Bus.Hides.after`
-/

namespace DriveMarket

variable {ε : Type}

namespace Bus

------------------------------------------------------------
-- Actions
------------------------------------------------------------

/- What can be done to a bus, to receivers by number. -/
inductive Action (ε : Type) where
  | publish (event : ε)
  | subscribe (subject : Subject)
  | tryReceive (number : Nat)
  | drop (number : Nat)
  | close

namespace Action

/- Whether an action is a try of a receiver to receive. -/
def isTryOf
    (number : Nat) : Action ε → Bool
  | .tryReceive n => n = number
  | _ => false

theorem isTryOf_self
    (number : Nat) :
    (tryReceive (ε := ε) number).isTryOf number :=
  decide_eq_true rfl

/- Whether an action is of no receiver. -/
def isShared : Action ε → Bool
  | .publish _ => true
  | .close => true
  | _ => false

/-
  What is left of an action for one receiver, as the only one
  of a bus.
-/
def alone
    (number : Nat) : Action ε → Option (Action ε)
  | .publish event => some (.publish event)
  | .subscribe _ => none
  | .tryReceive n =>
      if n = number then some (.tryReceive 0) else none
  | .drop n => if n = number then some (.drop 0) else none
  | .close => some .close

end Action

/- The events published before a bus is closed. -/
def offered : List (Action ε) → List ε
  | [] => []
  | .publish event :: actions => event :: offered actions
  | .close :: _ => []
  | _ :: actions => offered actions

theorem offered_prefix
    (actions more : List (Action ε)) :
    offered actions <+: offered (actions ++ more) := by
  induction actions with
  | nil => exact List.nil_prefix
  | cons action actions ih =>
      cases action with
      | publish event =>
          exact (List.prefix_cons_inj event).mpr ih
      | close => exact List.prefix_refl _
      | _ => exact ih

/- What a receiver does publishes nothing. -/
theorem offered_append_quiet
    {actions more : List (Action ε)}
    (hQuiet : ∀ action ∈ more, action.isShared = false) :
    offered (actions ++ more) = offered actions := by
  induction actions with
  | nil =>
      induction more with
      | nil => rfl
      | cons action more ih =>
          rw [List.forall_mem_cons] at hQuiet
          cases action with
          | publish event => cases hQuiet.1
          | close => cases hQuiet.1
          | _ => exact ih hQuiet.2
  | cons action actions ih =>
      cases action with
      | publish event => exact congrArg (event :: ·) ih
      | close => rfl
      | _ => exact ih

variable [BusEvent ε]

/-
  The bus after an action.  Nobody can publish on a bus that
  is closed or subscribe to it.
-/
def act
    (bus : Bus ε) : Action ε → Bus ε
  | .publish event =>
      if bus.isOpen then bus.publish event else bus
  | .subscribe subject =>
      if bus.isOpen then bus.subscribe subject else bus
  | .tryReceive number => (bus.tryReceive number).2
  | .drop number => bus.drop number
  | .close => bus.close

/- The bus after some actions. -/
def after
    (bus : Bus ε)
    (actions : List (Action ε)) : Bus ε :=
  actions.foldl act bus

/- What a receiver is answered to its tries to receive. -/
def answers
    (number : Nat) :
    List (Action ε) →
    Bus ε →
    List (Except ReceiveError (Option ε))
  | [], _ => []
  | action :: actions, bus =>
      let later := answers number actions (bus.act action)
      if action.isTryOf number then
        (bus.tryReceive number).1 :: later
      else
        later

/- The events among such answers. -/
def received
    (number : Nat)
    (actions : List (Action ε))
    (bus : Bus ε) : List ε :=
  (answers number actions bus).filterMap fun answer =>
    answer.toOption.join

/- The entries for what a receiver leaves behind at a try. -/
def recordOf
    (number : Nat)
    (bus : Bus ε) : List (Entry ε) :=
  match bus.receiver? number with
  | none => []
  | some receiver =>
      bus.ring.record receiver.subject.covers receiver.position

/- The entries for what a receiver leaves behind in a run. -/
def journal
    (number : Nat) :
    List (Action ε) →
    Bus ε →
    List (Entry ε)
  | [], _ => []
  | action :: actions, bus =>
      let later := journal number actions (bus.act action)
      if action.isTryOf number then
        bus.recordOf number ++ later
      else
        later

------------------------------------------------------------
-- The Ring
------------------------------------------------------------

/- What an action makes of the ring while the bus is open. -/
def Action.feed
    (ring : Ring ε) : Action ε → Ring ε
  | .publish event => ring.push event
  | _ => ring

/- Whether an action closes the bus. -/
def Action.closes : Action ε → Bool
  | .close => true
  | _ => false

variable {bus : Bus ε}
variable {number : Nat}

theorem tryReceive_shared
    (bus : Bus ε)
    (number : Nat) :
    (bus.tryReceive number).2.ring = bus.ring ∧
      (bus.tryReceive number).2.isOpen = bus.isOpen := by
  unfold tryReceive
  cases bus.receiver? number with
  | none => exact ⟨rfl, rfl⟩
  | some receiver =>
      dsimp only
      split <;> exact ⟨rfl, rfl⟩

theorem ring_act
    (bus : Bus ε)
    (action : Action ε) :
    (bus.act action).ring =
      if bus.isOpen then
        action.feed bus.ring
      else
        bus.ring := by
  cases action with
  | publish event =>
      rw [act]
      split <;> rfl
  | subscribe subject =>
      rw [act]
      split <;> rfl
  | tryReceive n =>
      rw [act, (tryReceive_shared bus n).1]
      exact (ite_self _).symm
  | drop n => exact (ite_self _).symm
  | close => exact (ite_self _).symm

theorem isOpen_act
    (bus : Bus ε)
    (action : Action ε) :
    (bus.act action).isOpen =
      (bus.isOpen && !action.closes) := by
  cases action with
  | publish event =>
      rw [act]
      split <;> exact (Bool.and_true _).symm
  | subscribe subject =>
      rw [act]
      split <;> exact (Bool.and_true _).symm
  | tryReceive n =>
      rw [act, (tryReceive_shared bus n).2]
      exact (Bool.and_true _).symm
  | drop n => exact (Bool.and_true _).symm
  | close => exact (Bool.and_false _).symm

theorem slots_act
    (bus : Bus ε)
    (action : Action ε) :
    (bus.act action).ring.slots = bus.ring.slots := by
  rw [ring_act]
  split
  · cases action <;> rfl
  · rfl

theorem slots_after
    (bus : Bus ε)
    (actions : List (Action ε)) :
    (bus.after actions).ring.slots = bus.ring.slots := by
  induction actions generalizing bus with
  | nil => rfl
  | cons action actions ih =>
      exact (ih (bus.act action)).trans (slots_act bus action)

/- Nothing changes on a closed bus but its receivers. -/
theorem act_of_not_open
    (action : Action ε)
    (hClosed : bus.isOpen = false) :
    (bus.act action).ring = bus.ring ∧
      (bus.act action).isOpen = false := by
  rw [ring_act, isOpen_act, hClosed]
  exact ⟨rfl, rfl⟩

theorem after_of_not_open
    (actions : List (Action ε))
    (hClosed : bus.isOpen = false) :
    (bus.after actions).ring = bus.ring := by
  induction actions generalizing bus with
  | nil => rfl
  | cons action actions ih =>
      rcases act_of_not_open action hClosed with
        ⟨hRing, hStill⟩
      exact (ih hStill).trans hRing

/- The ring holds what was published, whoever receives it. -/
theorem events_after
    (actions : List (Action ε))
    (hOpen : bus.isOpen) :
    (bus.after actions).ring.events.toList =
      bus.ring.events.toList ++ offered actions := by
  induction actions generalizing bus with
  | nil => exact (List.append_nil _).symm
  | cons action actions ih =>
      have hRing := ring_act bus action
      have hStill := isOpen_act bus action
      rw [if_pos hOpen] at hRing
      rw [hOpen, Bool.true_and] at hStill
      change ((bus.act action).after actions).ring.events.toList
        = _
      cases action with
      | publish event =>
          rw [ih hStill, hRing, Action.feed, Ring.push,
            Array.toList_push, List.append_assoc]
          rfl
      | close =>
          rw [after_of_not_open actions hStill, hRing, offered,
            List.append_nil]
          rfl
      | _ =>
          rw [ih hStill, hRing]
          rfl

------------------------------------------------------------
-- One Receiver
------------------------------------------------------------

/- What a receiver becomes by an action. -/
def Action.affect
    (number : Nat)
    (ring : Ring ε)
    (action : Action ε)
    (receiver : Receiver) : Option Receiver :=
  match action with
  | .tryReceive n =>
      some
        (if n = number then
          (receiver.receive ring).2
        else
          receiver)
  | .drop n => if n = number then none else some receiver
  | _ => some receiver

omit [BusEvent ε] in
theorem Action.eq_tryReceive
    {action : Action ε}
    {number : Nat}
    (hOwn : action.isTryOf number) :
    action = .tryReceive number := by
  cases action with
  | tryReceive n =>
      have hSame : n = number := of_decide_eq_true hOwn
      rw [hSame]
  | _ => cases hOwn

/- Only a try of its own gives a receiver a new state. -/
theorem Action.eq_of_affect
    {action : Action ε}
    {number : Nat}
    {ring : Ring ε}
    {receiver next : Receiver}
    (hOther : ¬ action.isTryOf number)
    (hNext : action.affect number ring receiver = some next) :
    receiver = next := by
  cases action with
  | tryReceive n =>
      have hNot : n ≠ number := by
        intro hSame
        exact hOther (decide_eq_true hSame)
      rw [affect, if_neg hNot, Option.some.injEq] at hNext
      exact hNext
  | drop n =>
      by_cases hSame : n = number
      · rw [affect, if_pos hSame] at hNext
        cases hNext
      · rw [affect, if_neg hSame, Option.some.injEq] at hNext
        exact hNext
  | _ => exact Option.some.inj hNext

theorem receiver?_set
    {receivers : List (Option Receiver)}
    {number : Nat}
    (n : Nat)
    (state : Option Receiver)
    (hKnown : number < receivers.length) :
    (receivers.set n state)[number]?.join =
      if n = number then
        state
      else
        receivers[number]?.join := by
  by_cases hSame : n = number
  · subst hSame
    rw [if_pos rfl, List.getElem?_set_self hKnown]
    rfl
  · rw [if_neg hSame, List.getElem?_set_ne hSame]

theorem receiver?_tryReceive
    (n : Nat)
    (hKnown : number < bus.receivers.length) :
    (bus.tryReceive n).2.receiver? number =
      (bus.receiver? number).map fun receiver =>
        if n = number then
          (receiver.receive bus.ring).2
        else
          receiver := by
  unfold tryReceive
  cases hReceiver : bus.receiver? n with
  | none =>
      dsimp only
      by_cases hSame : n = number
      · subst hSame
        rw [hReceiver]
        rfl
      · simp [hSame]
  | some receiver =>
      have hSet :=
        receiver?_set n (some (receiver.receive bus.ring).2)
          hKnown
      have hBoth :
          (bus.setReceiver n
              (receiver.receive bus.ring).2).receiver? number =
            (bus.receiver? number).map fun receiver =>
              if n = number then
                (receiver.receive bus.ring).2
              else
                receiver := by
        refine hSet.trans ?_
        by_cases hSame : n = number
        · subst hSame
          rw [if_pos rfl, hReceiver]
          simp
        · simp [hSame, receiver?]
      dsimp only
      split <;> exact hBoth

/- An action does to a receiver what it does alone. -/
theorem receiver?_act
    (action : Action ε)
    (hKnown : number < bus.receivers.length) :
    (bus.act action).receiver? number =
      (bus.receiver? number).bind
        (action.affect number bus.ring) := by
  have hSame :
      bus.receiver? number =
        (bus.receiver? number).bind some := by
    simp
  cases action with
  | publish event =>
      rw [act]
      split <;> exact hSame
  | subscribe subject =>
      rw [act]
      split
      · refine Eq.trans ?_ hSame
        rw [receiver?, subscribe,
          List.getElem?_append_left hKnown, receiver?]
      · exact hSame
  | tryReceive n =>
      rw [act, receiver?_tryReceive n hKnown]
      cases bus.receiver? number <;> rfl
  | drop n =>
      refine (receiver?_set n none hKnown).trans ?_
      rw [← receiver?]
      cases bus.receiver? number with
      | none => simp
      | some receiver => rfl
  | close => exact hSame

theorem known_act
    (action : Action ε)
    (hKnown : number < bus.receivers.length) :
    number < (bus.act action).receivers.length := by
  cases action with
  | publish event =>
      rw [act]
      split <;> exact hKnown
  | subscribe subject =>
      rw [act]
      split
      · rw [subscribe, List.length_append]
        omega
      · exact hKnown
  | tryReceive n =>
      rw [act, tryReceive]
      split
      · exact hKnown
      · dsimp only
        split <;>
          simpa only [setReceiver, List.length_set]
            using hKnown
  | drop n =>
      simpa only [act, drop, List.length_set] using hKnown
  | close => exact hKnown

/- A receiver is there until it is dropped, and no longer. -/
theorem receiver?_after_isSome_iff
    (actions : List (Action ε))
    (hKnown : number < bus.receivers.length) :
    ((bus.after actions).receiver? number).isSome ↔
      (bus.receiver? number).isSome ∧
        .drop number ∉ actions := by
  induction actions generalizing bus with
  | nil => simp [after]
  | cons action actions ih =>
      have hStep :
          (bus.act action |>.receiver? number).isSome ↔
            (bus.receiver? number).isSome ∧
              action ≠ .drop number := by
        rw [receiver?_act action hKnown]
        cases bus.receiver? number with
        | none => simp
        | some receiver =>
            cases action with
            | drop n =>
                by_cases hSame : n = number <;>
                  simp [Action.affect, hSame]
            | _ => simp [Action.affect]
      refine (ih (known_act action hKnown)).trans ?_
      rw [hStep, List.mem_cons, not_or, and_assoc]
      constructor
      · intro hAll
        exact ⟨hAll.1, Ne.symm hAll.2.1, hAll.2.2⟩
      · intro hAll
        exact ⟨hAll.1, Ne.symm hAll.2.1, hAll.2.2⟩

------------------------------------------------------------
-- Answers
------------------------------------------------------------

theorem answer_eq
    {receiver : Receiver}
    (hReceiver : bus.receiver? number = some receiver) :
    (bus.tryReceive number).1 =
      let event := (receiver.receive bus.ring).1
      if event.isNone ∧ !bus.isOpen then
        .error .closed
      else
        .ok event := by
  simp only [tryReceive, hReceiver]
  split
  · rename_i hNever
    exact (if_pos hNever).symm
  · rename_i hSome
    exact (if_neg hSome).symm

theorem received_cons
    (number : Nat)
    (action : Action ε)
    (actions : List (Action ε))
    (bus : Bus ε) :
    bus.received number (action :: actions) =
      (if action.isTryOf number then
        (bus.tryReceive number).1.toOption.join.toList
      else
        []) ++
        (bus.act action).received number actions := by
  by_cases hOwn : action.isTryOf number
  · simp only [received, answers, if_pos hOwn,
      List.filterMap_cons]
    cases (bus.tryReceive number).1.toOption.join <;> rfl
  · simp [received, answers, hOwn]

theorem act_of_tryReceive
    {next : Bus ε}
    {answer : Except ReceiveError (Option ε)}
    (hTry : bus.tryReceive number = (answer, next)) :
    bus.act (.tryReceive number) = next :=
  congrArg Prod.snd hTry

/- A receiver is given what it is answered. -/
theorem received_of_tryReceive
    {next : Bus ε}
    {answer : Except ReceiveError (Option ε)}
    (actions : List (Action ε))
    (hTry : bus.tryReceive number = (answer, next)) :
    bus.received number (.tryReceive number :: actions) =
      answer.toOption.join.toList ++
        next.received number actions := by
  rw [received_cons, if_pos (Action.isTryOf_self number),
    act_of_tryReceive hTry, hTry]

/- A receiver is given nothing without a try of its own. -/
theorem received_of_no_try
    {number : Nat}
    {actions : List (Action ε)}
    (bus : Bus ε)
    (hNone : ∀ action ∈ actions, ¬ action.isTryOf number) :
    bus.received number actions = [] := by
  induction actions generalizing bus with
  | nil => rfl
  | cons action actions ih =>
      rw [List.forall_mem_cons] at hNone
      rw [received_cons, if_neg hNone.1, ih _ hNone.2]
      rfl

/- A receiver that was dropped is given nothing. -/
theorem received_of_dropped
    (actions : List (Bus.Action ε))
    (hKnown : number < bus.receivers.length)
    (hGone : bus.receiver? number = none) :
    bus.received number actions = [] := by
  induction actions generalizing bus with
  | nil => rfl
  | cons action actions ih =>
      have hStill :
          (bus.act action).receiver? number = none := by
        rw [receiver?_act action hKnown, hGone]
        rfl
      rw [received_cons, tryReceive, hGone,
        ih (known_act action hKnown) hStill]
      simp [Except.toOption]

/- What is answered is what the journal calls delivered. -/
theorem received_eq_delivered
    (number : Nat)
    (actions : List (Action ε))
    (bus : Bus ε) :
    bus.received number actions =
      delivered (bus.journal number actions) := by
  induction actions generalizing bus with
  | nil => rfl
  | cons action actions ih =>
      rw [received_cons, ih, journal]
      by_cases hOwn : action.isTryOf number
      · rw [if_pos hOwn, if_pos hOwn, delivered_append,
          recordOf]
        cases hReceiver : bus.receiver? number with
        | none =>
            rw [tryReceive, hReceiver]
            rfl
        | some receiver =>
            simp only [answer_eq hReceiver,
              Ring.delivered_record]
            split
            · rename_i hNever
              have hNone :=
                Option.isNone_iff_eq_none.mp hNever.1
              exact congrArg (·.toList ++ _) hNone.symm
            · rfl
      · rw [if_neg hOwn, if_neg hOwn, List.nil_append]

------------------------------------------------------------
-- A Receiver by Itself
------------------------------------------------------------

/- A bus on which one receiver of another bus is alone. -/
structure Hides
    (number : Nat)
    (bus lone : Bus ε) : Prop where
  ring_eq : lone.ring = bus.ring
  isOpen_eq : lone.isOpen = bus.isOpen
  receiver_eq : lone.receiver? 0 = bus.receiver? number
  known : number < bus.receivers.length
  only : 0 < lone.receivers.length

/- What another receiver does is nothing to a receiver. -/
theorem Action.alone_eq_none
    {action : Action ε}
    (hNone : action.alone number = none) :
    action.isTryOf number = false ∧
      action.closes = false ∧
      (∀ ring, action.feed ring = ring) ∧
      ∀ ring receiver,
        action.affect number ring receiver =
          some receiver := by
  cases action with
  | publish event => cases hNone
  | subscribe subject =>
      exact ⟨rfl, rfl, fun _ => rfl, fun _ _ => rfl⟩
  | tryReceive n =>
      by_cases hSame : n = number
      · simp [Action.alone, hSame] at hNone
      · refine ⟨by simp [isTryOf, hSame], rfl, fun _ => rfl,
          ?_⟩
        simp [affect, hSame]
  | drop n =>
      by_cases hSame : n = number
      · simp [Action.alone, hSame] at hNone
      · refine ⟨rfl, rfl, fun _ => rfl, ?_⟩
        simp [affect, hSame]
  | close => cases hNone

/- What is left of an action does the same as the action. -/
theorem Action.alone_eq_some
    {action own : Action ε}
    (hOwn : action.alone number = some own) :
    own.isTryOf 0 = action.isTryOf number ∧
      own.closes = action.closes ∧
      (∀ ring, own.feed ring = action.feed ring) ∧
      ∀ ring receiver,
        own.affect 0 ring receiver =
          action.affect number ring receiver := by
  cases action with
  | publish event =>
      cases hOwn
      exact ⟨rfl, rfl, fun _ => rfl, fun _ _ => rfl⟩
  | subscribe subject => cases hOwn
  | tryReceive n =>
      by_cases hSame : n = number
      · rw [Action.alone, if_pos hSame] at hOwn
        cases hOwn
        simp [isTryOf, closes, feed, affect, hSame]
      · simp [Action.alone, hSame] at hOwn
  | drop n =>
      by_cases hSame : n = number
      · rw [Action.alone, if_pos hSame] at hOwn
        cases hOwn
        simp [isTryOf, closes, feed, affect, hSame]
      · simp [Action.alone, hSame] at hOwn
  | close =>
      cases hOwn
      exact ⟨rfl, rfl, fun _ => rfl, fun _ _ => rfl⟩

variable {lone : Bus ε}

theorem Hides.skip
    {action : Action ε}
    (hHides : Hides number bus lone)
    (hNone : action.alone number = none) :
    Hides number (bus.act action) lone := by
  rcases Action.alone_eq_none hNone with
    ⟨-, hCloses, hFeed, hAffect⟩
  constructor
  case ring_eq =>
    rw [ring_act, hFeed, ite_self]
    exact hHides.ring_eq
  case isOpen_eq =>
    rw [isOpen_act, hCloses]
    exact hHides.isOpen_eq.trans (Bool.and_true _).symm
  case receiver_eq =>
    rw [receiver?_act action hHides.known, hHides.receiver_eq]
    cases bus.receiver? number with
    | none => rfl
    | some receiver => exact (hAffect _ receiver).symm
  case known => exact known_act action hHides.known
  case only => exact hHides.only

theorem Hides.both
    {action own : Action ε}
    (hHides : Hides number bus lone)
    (hOwn : action.alone number = some own) :
    Hides number (bus.act action) (lone.act own) := by
  rcases Action.alone_eq_some hOwn with
    ⟨-, hCloses, hFeed, hAffect⟩
  constructor
  case ring_eq =>
    rw [ring_act, ring_act, hHides.ring_eq, hHides.isOpen_eq,
      hFeed]
  case isOpen_eq =>
    rw [isOpen_act, isOpen_act, hHides.isOpen_eq, hCloses]
  case receiver_eq =>
    rw [receiver?_act action hHides.known,
      receiver?_act own hHides.only, hHides.receiver_eq,
      hHides.ring_eq]
    exact congrArg _ (funext fun receiver => hAffect _ receiver)
  case known => exact known_act action hHides.known
  case only => exact known_act own hHides.only

theorem Hides.answer
    (hHides : Hides number bus lone) :
    (lone.tryReceive 0).1 = (bus.tryReceive number).1 := by
  have hReceiver := hHides.receiver_eq
  cases hFound : bus.receiver? number with
  | none =>
      rw [hFound] at hReceiver
      rw [tryReceive, tryReceive, hFound, hReceiver]
  | some receiver =>
      rw [hFound] at hReceiver
      rw [answer_eq hFound, answer_eq hReceiver,
        hHides.ring_eq, hHides.isOpen_eq]

/- A receiver gets what it would get as the only one. -/
theorem Hides.after
    (hHides : Hides number bus lone)
    (actions : List (Action ε)) :
    let own := actions.filterMap (·.alone number)
    lone.answers 0 own = bus.answers number actions ∧
      Hides number (bus.after actions) (lone.after own) := by
  induction actions generalizing bus lone with
  | nil => exact ⟨rfl, hHides⟩
  | cons action actions ih =>
      intro own
      cases hAlone : action.alone number with
      | none =>
          have hSame :
              own = actions.filterMap (·.alone number) :=
            List.filterMap_cons_none hAlone
          have hOther := (Action.alone_eq_none hAlone).1
          have hRest := ih (hHides.skip hAlone)
          rw [hSame, answers, hOther]
          exact hRest
      | some first =>
          have hSame :
              own =
                first ::
                  actions.filterMap (·.alone number) :=
            List.filterMap_cons_some hAlone
          have hTry := (Action.alone_eq_some hAlone).1
          have hRest := ih (hHides.both hAlone)
          rw [hSame, answers, answers, hTry, hHides.answer,
            hRest.1]
          exact ⟨rfl, hRest.2⟩

end Bus

end DriveMarket
