import DriveMarket.Proofs.Bus.Registry
import Mathlib.Data.List.Nodup

/-
  What becomes of every handler.

  What a handler is called with follows from the actions after
  its registration, and the handlers that are left are those
  whose story, told by the actions, has not come to an end.

  Ids have 64 bits.  What is said of the handler of an id is
  said as long as no id has been given out twice, which needs
  more registrations than there are ids.

  Key definitions include:
    * `Handlers.issued`
    * `Handlers.calls`
    * `due`
    * `untilFinished`
    * `Handlers.InOrder`
    * `Handlers.Holds`
    * `Handlers.Keeps`

  Correctness is proven by:
    * `Handler.heard_eq`
    * `Handler.survive_isSome_iff`
    * `Handlers.ids_nodup`
    * `Handlers.InOrder.after`
    * `Handlers.Holds.after`
    * `Handlers.story`
    * `Handlers.keeps_after`
-/

namespace DriveMarket

variable {ε : Type}

------------------------------------------------------------
-- Calls
------------------------------------------------------------

namespace Handlers

variable [BusEvent ε]

/- The id that an action gives out, if it does. -/
def issuedBy
    (handlers : Handlers ε) : Action ε → List UInt64
  | .register key finished =>
      [(handlers.register key finished).1]
  | _ => []

/- The calls that an action makes, as ids with the event. -/
def callsBy
    (handlers : Handlers ε) : Action ε → List (UInt64 × ε)
  | .dispatch event =>
      (handlers.dispatch event).1.calls.map (·, event)
  | _ => []

/- The ids that some actions give out. -/
def issued :
    List (Action ε) →
    Handlers ε →
    List UInt64
  | [], _ => []
  | action :: actions, handlers =>
      handlers.issuedBy action ++
        issued actions (handlers.act action)

/- The calls that some actions make. -/
def calls :
    List (Action ε) →
    Handlers ε →
    List (UInt64 × ε)
  | [], _ => []
  | action :: actions, handlers =>
      handlers.callsBy action ++
        calls actions (handlers.act action)

/- The handlers that some actions leave, from none on. -/
def reached
    (actions : List (Action ε)) : Handlers ε :=
  (empty : Handlers ε).after actions

/- All ids given out until then. -/
def ids
    (actions : List (Action ε)) : List UInt64 :=
  (empty : Handlers ε).issued actions

/- All calls made until then. -/
def log
    (actions : List (Action ε)) : List (UInt64 × ε) :=
  (empty : Handlers ε).calls actions

end Handlers

/- The events that one handler is called with. -/
def eventsOf
    (id : UInt64)
    (calls : List (UInt64 × ε)) : List ε :=
  (calls.filter (·.1 = id)).map (·.2)

theorem eventsOf_append
    (id : UInt64)
    (calls more : List (UInt64 × ε)) :
    eventsOf id (calls ++ more) =
      eventsOf id calls ++ eventsOf id more := by
  simp [eventsOf]

theorem eventsOf_map
    (id : UInt64)
    (event : ε)
    (handlers : List (Handler ε)) :
    eventsOf id ((handlers.map (·.id)).map (·, event)) =
      (handlers.filter (·.id = id)).map fun _ => event := by
  simp [eventsOf, List.filter_map, Function.comp_def]

------------------------------------------------------------
-- Obligations
------------------------------------------------------------

/-
  The events dispatched for a key before the handler of some
  id is removed from it.
-/
def due
    [BusEvent ε]
    (key : PublicKey)
    (id : UInt64) :
    List (Handlers.Action ε) →
    List ε
  | [] => []
  | .register _ _ :: actions => due key id actions
  | .remove k n :: actions =>
      if k = key ∧ n = id then [] else due key id actions
  | .dispatch event :: actions =>
      if BusEvent.key event = key then
        event :: due key id actions
      else
        due key id actions

/-
  The first of some events, up to the one with which a handler
  is finished that has been called with others before.
-/
def untilFinished
    (finished : List ε → Bool)
    (calls : List ε) :
    List ε →
    List ε
  | [] => []
  | event :: events =>
      if finished (event :: calls) then
        [event]
      else
        event :: untilFinished finished (event :: calls) events

/- Whether none of some events finishes such a handler. -/
def waits
    (finished : List ε → Bool)
    (calls : List ε) :
    List ε →
    Bool
  | [] => true
  | event :: events =>
      !finished (event :: calls) &&
        waits finished (event :: calls) events

/-
  A handler is called with all events that are due to it, or
  with those up to the first call that finishes it.
-/
theorem untilFinished_spec
    (finished : List ε → Bool)
    (calls events : List ε) :
    (waits finished calls events →
      untilFinished finished calls events = events) ∧
    (¬ waits finished calls events →
      ∃ sooner event later,
        events = sooner ++ event :: later ∧
        untilFinished finished calls events =
          sooner ++ [event] ∧
        waits finished calls sooner ∧
        finished (event :: (sooner.reverse ++ calls))) := by
  induction events generalizing calls with
  | nil => exact ⟨fun _ => rfl, fun hNever => absurd rfl hNever⟩
  | cons event events ih =>
      rw [waits, untilFinished]
      by_cases hNow : finished (event :: calls)
      · rw [if_pos hNow, hNow]
        refine ⟨fun hWaits => (by cases hWaits), fun _ => ?_⟩
        exact ⟨[], event, events, rfl, rfl, rfl, hNow⟩
      · rw [if_neg hNow]
        rw [Bool.not_eq_true] at hNow
        rw [hNow, Bool.not_false, Bool.true_and]
        rcases ih (event :: calls) with ⟨hAll, hSome⟩
        refine ⟨fun hWaits => by rw [hAll hWaits], ?_⟩
        intro hEnds
        rcases hSome hEnds with
          ⟨sooner, last, later, rfl, hUntil, hWaits, hLast⟩
        refine ⟨event :: sooner, last, later, rfl, ?_, ?_, ?_⟩
        · rw [hUntil]
          rfl
        · rw [waits, hNow, Bool.not_false, Bool.true_and]
          exact hWaits
        · rw [List.reverse_cons, List.append_assoc]
          exact hLast

------------------------------------------------------------
-- One Handler
------------------------------------------------------------

namespace Handler

variable [BusEvent ε]

/- The events of a key that an action calls handlers with. -/
def takes
    (key : PublicKey)
    (action : Handlers.Action ε) : List ε :=
  match action with
  | .dispatch event =>
      if BusEvent.key event = key then [event] else []
  | _ => []

/- What some actions leave of a handler of a key. -/
def survive
    (key : PublicKey) :
    List (Handlers.Action ε) →
    Handler ε →
    Option (Handler ε)
  | [], handler => some handler
  | action :: actions, handler =>
      (handler.step key action).bind (survive key actions)

/- The events that some actions call such a handler with. -/
def heard
    (key : PublicKey) :
    List (Handlers.Action ε) →
    Handler ε →
    List ε
  | [], _ => []
  | action :: actions, handler =>
      takes key action ++
        match handler.step key action with
        | none => []
        | some next => heard key actions next

/- A handler is called with what is due until it finishes. -/
theorem heard_eq
    (key : PublicKey)
    (actions : List (Handlers.Action ε))
    (handler : Handler ε) :
    handler.heard key actions =
      untilFinished handler.finished handler.calls
        (due key handler.id actions) := by
  induction actions generalizing handler with
  | nil => rfl
  | cons action actions ih =>
      cases action with
      | register k finished => exact ih handler
      | remove k id =>
          rw [heard, step, due]
          by_cases hThis : k = key ∧ id = handler.id
          · rw [if_pos hThis, if_pos hThis]
            rfl
          · rw [if_neg hThis, if_neg hThis]
            exact ih handler
      | dispatch event =>
          rw [heard, takes, step, due]
          by_cases hKey : BusEvent.key event = key
          · simp only [if_pos hKey, untilFinished,
              afterCall_eq]
            by_cases hNow :
                handler.finished (event :: handler.calls)
            · rw [if_pos hNow, if_pos hNow]
              rfl
            · rw [if_neg hNow, if_neg hNow]
              exact congrArg (event :: ·) (ih _)
          · rw [if_neg hKey, if_neg hKey, if_neg hKey]
            exact ih handler

/- A handler is left until it is removed or has finished. -/
theorem survive_isSome_iff
    (key : PublicKey)
    (actions : List (Handlers.Action ε))
    (handler : Handler ε) :
    (handler.survive key actions).isSome ↔
      .remove key handler.id ∉ actions ∧
        waits handler.finished handler.calls
          (due key handler.id actions) := by
  induction actions generalizing handler with
  | nil => simp [survive, due, waits]
  | cons action actions ih =>
      cases action with
      | register k finished =>
          simpa [survive, step, due] using ih handler
      | remove k id =>
          rw [survive, step, due]
          by_cases hThis : k = key ∧ id = handler.id
          · rw [if_pos hThis, if_pos hThis, hThis.1, hThis.2]
            simp
          · rw [if_neg hThis, if_neg hThis, Option.bind_some,
              ih handler]
            have hOther :
                Handlers.Action.remove (ε := ε) key
                  handler.id ≠ .remove k id := by
              intro hSame
              injection hSame with hKey hId
              exact hThis ⟨hKey.symm, hId.symm⟩
            simp [hOther]
      | dispatch event =>
          rw [survive, step, due]
          by_cases hKey : BusEvent.key event = key
          · simp only [if_pos hKey, waits, afterCall_eq]
            by_cases hNow :
                handler.finished (event :: handler.calls)
            · simp [hNow]
            · rw [if_neg hNow, Option.bind_some, ih]
              simp [hNow]
          · rw [if_neg hKey, if_neg hKey, Option.bind_some,
              ih handler]
            simp

end Handler

------------------------------------------------------------
-- Ids
------------------------------------------------------------

namespace Handlers

variable [BusEvent ε]

theorem nextId_act
    (handlers : Handlers ε)
    (action : Action ε) :
    (handlers.act action).nextId =
      handlers.nextId +
        if action.isRegister then 1 else 0 := by
  have hSame : handlers.nextId = handlers.nextId + 0 :=
    (UInt64.add_zero _).symm
  cases action with
  | register key finished => rfl
  | remove key id =>
      refine Eq.trans ?_ hSame
      cases hGet : handlers.lists.get? key with
      | none => rw [act, remove_of_get_none id hGet]
      | some list =>
          rw [act, remove_of_get id hGet]
          rfl
  | dispatch event =>
      refine Eq.trans ?_ hSame
      cases hGet :
          handlers.lists.get? (BusEvent.key event) with
      | none => rw [act, dispatch_of_get_none hGet]
      | some list =>
          rw [act, dispatch_of_get hGet]
          rfl

/- Ids count the registrations. -/
theorem issued_eq
    (actions : List (Action ε))
    (handlers : Handlers ε) :
    handlers.issued actions =
      (List.range (actions.countP (·.isRegister))).map
        fun n => handlers.nextId + .ofNat n := by
  induction actions generalizing handlers with
  | nil => rfl
  | cons action actions ih =>
      rw [issued, ih, nextId_act, List.countP_cons]
      by_cases hRegister : action.isRegister
      · rw [if_pos hRegister, if_pos hRegister,
          List.range_succ_eq_map, List.map_cons, List.map_map]
        cases action with
        | register key finished =>
            refine congrArg₂ List.cons
              (UInt64.add_zero _).symm ?_
            apply List.map_congr_left
            intro n _
            rw [Function.comp_apply, UInt64.add_assoc,
              Nat.succ_eq_one_add, UInt64.ofNat_add]
            rfl
        | _ => cases hRegister
      · rw [if_neg hRegister, if_neg hRegister,
          UInt64.add_zero, Nat.add_zero]
        cases action with
        | register key finished => exact absurd rfl hRegister
        | _ => rfl

theorem ids_eq
    (actions : List (Action ε)) :
    ids actions =
      (List.range (actions.countP (·.isRegister))).map
        UInt64.ofNat := by
  refine (issued_eq actions empty).trans ?_
  apply List.map_congr_left
  intro n _
  exact UInt64.zero_add _

/- No id is given out twice while there are others. -/
theorem ids_nodup
    {actions : List (Action ε)}
    (hFew :
      actions.countP (·.isRegister) ≤ 0x10000000000000000) :
    (ids actions).Nodup := by
  rw [ids_eq]
  refine List.Nodup.map_on ?_ List.nodup_range
  intro m hM n hN hSame
  rw [List.mem_range] at hM hN
  have hNumbers := congrArg UInt64.toNat hSame
  rw [UInt64.toNat_ofNat_of_lt' (Nat.lt_of_lt_of_le hM hFew),
    UInt64.toNat_ofNat_of_lt' (Nat.lt_of_lt_of_le hN hFew)]
    at hNumbers
  exact hNumbers

/-
  The handlers of a key are in the order in which their ids
  were given out.
-/
def InOrder
    (ids : List UInt64)
    (handlers : Handlers ε) : Prop :=
  ∀ key, ((handlers.ofKey key).map (·.id)).Sublist ids

omit [BusEvent ε] in
theorem InOrder.empty :
    InOrder [] (.empty : Handlers ε) :=
  fun _ => List.Sublist.refl []

theorem InOrder.act
    {ids : List UInt64}
    {handlers : Handlers ε}
    (hOrder : InOrder ids handlers)
    (action : Action ε) :
    InOrder (ids ++ handlers.issuedBy action)
      (handlers.act action) := by
  intro key
  rw [ofKey_act, List.map_append]
  apply List.Sublist.append
  · exact (Handler.ids_filterMap_step key action _).trans
      (hOrder key)
  · cases action with
    | register k finished =>
        rw [Action.newcomer]
        split
        · exact List.Sublist.refl _
        · exact List.nil_sublist _
    | _ => exact List.Sublist.refl _

theorem InOrder.after
    {ids : List UInt64}
    {handlers : Handlers ε}
    (hOrder : InOrder ids handlers)
    (actions : List (Action ε)) :
    InOrder (ids ++ handlers.issued actions)
      (handlers.after actions) := by
  induction actions generalizing ids handlers with
  | nil =>
      rw [issued, List.append_nil]
      exact hOrder
  | cons action actions ih =>
      rw [issued, ← List.append_assoc]
      exact ih (hOrder.act action)

theorem inOrder_reached
    (actions : List (Action ε)) :
    InOrder (ids actions) (reached actions) :=
  InOrder.empty.after actions

/- Nobody is called by an id that was not given out. -/
theorem InOrder.mem_of_mem_calls
    {ids : List UInt64}
    {handlers : Handlers ε}
    {call : UInt64 × ε}
    (hOrder : InOrder ids handlers)
    (actions : List (Action ε))
    (hCall : call ∈ handlers.calls actions) :
    call.1 ∈ ids ++ handlers.issued actions := by
  induction actions generalizing ids handlers with
  | nil => cases hCall
  | cons action actions ih =>
      rw [calls, List.mem_append] at hCall
      rw [issued, ← List.append_assoc]
      rcases hCall with hNow | hLater
      · apply List.mem_append_left
        apply List.mem_append_left
        cases action with
        | dispatch event =>
            rw [callsBy, dispatch_told] at hNow
            rcases List.mem_map.mp hNow with ⟨id, hId, rfl⟩
            exact (hOrder _).subset hId
        | _ => cases hNow
      · exact ih (hOrder.act action) hLater

------------------------------------------------------------
-- The Handler of an Id
------------------------------------------------------------

/- Of all handlers, those of an id are one of a key at most. -/
structure Holds
    (key : PublicKey)
    (id : UInt64)
    (state : Option (Handler ε))
    (handlers : Handlers ε) : Prop where
  found :
    (handlers.ofKey key).filter (·.id = id) = state.toList
  nowhereElse :
    ∀ k ≠ key, id ∉ (handlers.ofKey k).map (·.id)

variable {key : PublicKey}
variable {id : UInt64}
variable {state : Option (Handler ε)}
variable {handlers : Handlers ε}

omit [BusEvent ε] in
theorem filter_id_eq_nil
    {list : List (Handler ε)}
    (hNone : id ∉ list.map (·.id)) :
    list.filter (·.id = id) = [] := by
  rw [List.filter_eq_nil_iff]
  intro handler hMem hThis
  have hId : handler.id = id := of_decide_eq_true hThis
  exact hNone (List.mem_map.mpr ⟨handler, hMem, hId⟩)

/- Ids decide what is left with an id. -/
theorem filter_filterMap_step
    (key : PublicKey)
    (action : Action ε)
    (id : UInt64)
    (list : List (Handler ε)) :
    (list.filterMap (·.step key action)).filter (·.id = id) =
      (list.filter (·.id = id)).filterMap
        (·.step key action) := by
  rw [List.filter_filterMap, List.filterMap_filter]
  apply List.filterMap_congr
  intro handler _
  cases hStep : handler.step key action with
  | none => simp
  | some next =>
      have hId := Handler.id_of_step hStep
      by_cases hThis : handler.id = id <;>
        simp [Option.filter, hId, hThis]

theorem Holds.act
    (hHolds : Holds key id state handlers)
    (action : Action ε)
    (hNew : id ∉ handlers.issuedBy action) :
    Holds key id (state.bind (·.step key action))
      (handlers.act action) := by
  have hOthers :
      ∀ k,
        id ∉ ((action.newcomer k
          handlers.nextId).toList.map (·.id)) := by
    intro k hMem
    cases action with
    | register k' finished =>
        rw [Action.newcomer] at hMem
        split at hMem
        · exact hNew hMem
        · cases hMem
    | _ => cases hMem
  constructor
  case found =>
    rw [ofKey_act, List.filter_append,
      filter_id_eq_nil (hOthers key), List.append_nil,
      filter_filterMap_step, hHolds.found]
    cases state with
    | none => rfl
    | some handler =>
        cases hStep : handler.step key action <;>
          simp [hStep]
  case nowhereElse =>
    intro k hOther hMem
    rw [ofKey_act, List.map_append, List.mem_append] at hMem
    rcases hMem with hOld | hLast
    · exact hHolds.nowhereElse k hOther
        ((Handler.ids_filterMap_step k action _).subset hOld)
    · exact hOthers k hLast

/- Only the handler of an id is called by it. -/
theorem Holds.eventsOf_callsBy
    (hHolds : Holds key id state handlers)
    (action : Action ε) :
    eventsOf id (handlers.callsBy action) =
      state.elim [] fun _ => Handler.takes key action := by
  cases action with
  | dispatch event =>
      rw [callsBy, dispatch_told, eventsOf_map,
        Handler.takes]
      by_cases hKey : BusEvent.key event = key
      · rw [if_pos hKey, hKey, hHolds.found]
        cases state <;> rfl
      · rw [if_neg hKey,
          filter_id_eq_nil (hHolds.nowhereElse _ hKey)]
        cases state <;> rfl
  | _ => cases state <;> rfl

/-
  As long as its id is not given out again, the calls of an id
  and what is left under it are those of its handler by itself.
-/
theorem Holds.after
    (hHolds : Holds key id state handlers)
    (actions : List (Action ε))
    (hNew : id ∉ handlers.issued actions) :
    eventsOf id (handlers.calls actions) =
        state.elim [] (·.heard key actions) ∧
      Holds key id (state.bind (·.survive key actions))
        (handlers.after actions) := by
  induction actions generalizing handlers state with
  | nil =>
      refine ⟨?_, ?_⟩
      · cases state <;> rfl
      · cases state <;> exact hHolds
  | cons action actions ih =>
      rw [issued, List.mem_append, not_or] at hNew
      rcases ih (hHolds.act action hNew.1) hNew.2 with
        ⟨hLater, hLeft⟩
      rw [calls, eventsOf_append,
        hHolds.eventsOf_callsBy action, hLater]
      refine ⟨?_, ?_⟩
      · cases state with
        | none => rfl
        | some handler =>
            simp only [Option.elim, Handler.heard,
              Option.bind_some]
            cases handler.step key action <;> rfl
      · cases state <;> exact hLeft

omit [BusEvent ε] in
theorem Holds.isRegistered_iff
    (hHolds : Holds key id state handlers)
    (k : PublicKey) :
    handlers.isRegistered k id ↔ k = key ∧ state.isSome := by
  by_cases hKey : k = key
  · subst hKey
    have hFound := hHolds.found
    have hAny :
        handlers.isRegistered k id ↔
          (handlers.ofKey k).filter (·.id = id) ≠ [] := by
      rw [ne_eq, List.filter_eq_nil_iff]
      simp [isRegistered]
    rw [hAny, hFound]
    cases state <;> simp
  · have hNone := hHolds.nowhereElse k hKey
    rw [Handlers.isRegistered_iff]
    simp only [hNone, hKey, false_and]

------------------------------------------------------------
-- Runs
------------------------------------------------------------

theorem calls_append
    (actions more : List (Action ε))
    (handlers : Handlers ε) :
    handlers.calls (actions ++ more) =
      handlers.calls actions ++
        (handlers.after actions).calls more := by
  induction actions generalizing handlers with
  | nil => rfl
  | cons action actions ih =>
      rw [List.cons_append, calls, calls, ih,
        List.append_assoc]
      rfl

theorem issued_append
    (actions more : List (Action ε))
    (handlers : Handlers ε) :
    handlers.issued (actions ++ more) =
      handlers.issued actions ++
        (handlers.after actions).issued more := by
  induction actions generalizing handlers with
  | nil => rfl
  | cons action actions ih =>
      rw [List.cons_append, issued, issued, ih,
        List.append_assoc]
      rfl

/- Every id was given out by a registration. -/
theorem exists_registration
    {handlers : Handlers ε}
    {id : UInt64}
    (actions : List (Action ε))
    (hIssued : id ∈ handlers.issued actions) :
    ∃ sooner key finished later,
      actions = sooner ++ .register key finished :: later ∧
        ((handlers.after sooner).register key finished).1 =
          id := by
  induction actions generalizing handlers with
  | nil => cases hIssued
  | cons action actions ih =>
      rw [issued, List.mem_append] at hIssued
      rcases hIssued with hNow | hLater
      · cases action with
        | register key finished =>
            have hId := List.mem_singleton.mp hNow
            exact ⟨[], key, finished, actions, rfl, hId.symm⟩
        | _ => cases hNow
      · rcases ih hLater with
          ⟨sooner, key, finished, later, rfl, hId⟩
        exact ⟨action :: sooner, key, finished, later, rfl,
          hId⟩

/-
  A handler's story begins with its registration, if its id is
  given out once.
-/
theorem story
    {sooner later : List (Action ε)}
    {key : PublicKey}
    {finished : List ε → Bool}
    (hOnce :
      (ids
        (sooner ++ .register key finished :: later)).Nodup) :
    let actions := sooner ++ .register key finished :: later
    let id := ((reached sooner).register key finished).1
    let handler : Handler ε := ⟨id, finished, []⟩
    eventsOf id (log actions) = handler.heard key later ∧
      Holds key id (handler.survive key later)
        (reached actions) := by
  intro actions id handler
  rw [ids, issued_append, List.nodup_append] at hOnce
  rcases hOnce with ⟨-, hRest, hApart⟩
  have hBefore : id ∉ ids sooner := by
    intro hMem
    exact hApart id hMem id List.mem_cons_self rfl
  have hAfter :
      id ∉ ((reached sooner).register key finished).2.issued
        later :=
    (List.nodup_cons.mp hRest).1
  have hOrder := inOrder_reached sooner
  have hNobody :
      ∀ k, id ∉ ((reached sooner).ofKey k).map (·.id) :=
    fun k hMem => hBefore ((hOrder k).subset hMem)
  have hSilent : eventsOf id (log sooner) = [] := by
    rw [eventsOf, List.map_eq_nil_iff, List.filter_eq_nil_iff]
    intro call hCall hThis
    have hId : call.1 = id := of_decide_eq_true hThis
    rw [← hId] at hBefore
    exact hBefore
      (InOrder.empty.mem_of_mem_calls sooner hCall)
  have hStart :
      Holds key id (some handler)
        ((reached sooner).register key finished).2 := by
    constructor
    case found =>
      rw [ofKey_register, if_pos rfl, List.filter_append,
        filter_id_eq_nil (hNobody key), List.nil_append]
      exact List.filter_cons_of_pos (decide_eq_true rfl)
    case nowhereElse =>
      intro k hOther
      rw [ofKey_register, if_neg hOther]
      exact hNobody k
  rcases hStart.after later hAfter with ⟨hLater, hLeft⟩
  refine ⟨?_, ?_⟩
  · rw [log, calls_append, eventsOf_append]
    exact (congrArg (· ++ _) hSilent).trans hLater
  · rw [reached, after, List.foldl_append]
    exact hLeft

------------------------------------------------------------
-- Registered Handlers
------------------------------------------------------------

/- A handler that is removed is one less of its key. -/
omit [BusEvent ε] in
theorem InOrder.count_remove
    {ids : List UInt64}
    (hOrder : InOrder ids handlers)
    (hOnce : ids.Nodup)
    (hThere : handlers.isRegistered key id) :
    (handlers.remove key id).2.count key + 1 =
      handlers.count key := by
  have hDistinct := hOnce.sublist (hOrder key)
  have hLeft :
      ((handlers.remove key id).2.ofKey key).map (·.id) =
        ((handlers.ofKey key).map (·.id)).erase id := by
    rw [ofKey_remove, if_pos rfl,
      hDistinct.erase_eq_filter id, List.filter_map]
    rfl
  have hLength := congrArg List.length hLeft
  rw [Handlers.isRegistered_iff] at hThere
  have hSome := List.length_pos_of_mem hThere
  rw [List.length_map, List.length_erase_of_mem hThere]
    at hLength
  rw [count_eq, count_eq]
  rw [List.length_map] at hLength hSome
  omega

/- The handlers of a key are the registered ones. -/
omit [BusEvent ε] in
theorem InOrder.count_eq_countP
    {ids : List UInt64}
    (hOrder : InOrder ids handlers)
    (hOnce : ids.Nodup)
    (key : PublicKey) :
    handlers.count key =
      ids.countP (handlers.isRegistered key) := by
  have hSame :
      ((handlers.ofKey key).map (·.id)).Perm
        (ids.filter (handlers.isRegistered key)) := by
    rw [List.perm_ext_iff_of_nodup
      (hOnce.sublist (hOrder key)) (hOnce.filter _)]
    intro id
    rw [List.mem_filter, Handlers.isRegistered_iff]
    constructor
    · intro hMem
      exact ⟨(hOrder key).subset hMem, hMem⟩
    · exact And.right
  rw [List.countP_eq_length_filter, ← hSame.length_eq,
    List.length_map, count_eq]

/- Keys are listed for the handlers that they have. -/
omit [BusEvent ε] in
theorem Tidy.mem_keys_iff_registered
    (hTidy : Tidy handlers)
    (key : PublicKey) :
    (key ∈ handlers.keys ↔
      ∃ id, handlers.isRegistered key id) ∧
    (key ∈ handlers.keys ↔ 0 < handlers.count key) := by
  simp only [hTidy.mem_keys_iff, count_eq,
    List.length_pos_iff, Handlers.isRegistered_iff,
    iff_self, and_true]
  cases handlers.ofKey key with
  | nil => simp
  | cons handler rest =>
      simp only [ne_eq, reduceCtorEq, not_false_eq_true,
        true_iff]
      exact ⟨handler.id, List.mem_cons_self⟩

------------------------------------------------------------
-- The Law of Handlers
------------------------------------------------------------

/- What is kept when actions are taken, from no handlers on. -/
structure Keeps
    (actions : List (Action ε)) : Prop where
  -- Ids count the registrations, in 64 bits.
  numbered :
    ids actions =
      (List.range (actions.countP (·.isRegister))).map
        UInt64.ofNat
  distinct :
    actions.countP (·.isRegister) ≤ 0x10000000000000000 →
    (ids actions).Nodup
  registered :
    ∀ id ∈ ids actions,
      ∃ sooner key finished later,
        actions = sooner ++ .register key finished :: later ∧
          ((reached sooner).register key finished).1 = id
  -- A handler is called with what is due to it, in order, up
  -- to the first call that finishes it.
  called :
    (ids actions).Nodup →
    ∀ sooner key finished later,
      actions = sooner ++ .register key finished :: later →
      let id := ((reached sooner).register key finished).1
      let events := due key id later
      let calls := eventsOf id (log actions)
      (waits finished [] events → calls = events) ∧
        (¬ waits finished [] events →
          ∃ earlier event others,
            events = earlier ++ event :: others ∧
              calls = earlier ++ [event] ∧
              waits finished [] earlier ∧
              finished (event :: earlier.reverse))
  stranger :
    ∀ call ∈ log actions, call.1 ∈ ids actions
  -- It is registered until it is removed or has finished.
  left :
    (ids actions).Nodup →
    ∀ sooner key finished later,
      actions = sooner ++ .register key finished :: later →
      let id := ((reached sooner).register key finished).1
      ∀ k,
        (reached actions).isRegistered k id ↔
          k = key ∧
            .remove key id ∉ later ∧
            waits finished [] (due key id later)
  -- Those of a key are called in the order of registration.
  dispatched :
    ∀ event,
      let last := reached actions
      let told := (last.dispatch event).1
      told.calls.Sublist (ids actions) ∧
        (∀ id,
          id ∈ told.calls ↔
            last.isRegistered (BusEvent.key event) id) ∧
        told.invoked = told.calls.length ∧
        told.invoked = last.count (BusEvent.key event)
  removed :
    ∀ key id,
      let last := reached actions
      let told := (last.remove key id).1
      let next := (last.remove key id).2
      told = last.isRegistered key id ∧
        (¬ told → next = last) ∧
        (told →
          ((ids actions).Nodup →
            next.count key + 1 = last.count key) ∧
          ∀ k n,
            next.isRegistered k n ↔
              last.isRegistered k n ∧ ¬ (k = key ∧ n = id))
  counted :
    (ids actions).Nodup →
    ∀ key,
      let last := reached actions
      last.count key =
        (ids actions).countP (last.isRegistered key)
  -- No key is listed without a handler, or twice.
  listed :
    let last := reached actions
    last.keys.Nodup ∧
      ∀ key,
        (key ∈ last.keys ↔ ∃ id, last.isRegistered key id) ∧
        (key ∈ last.keys ↔ 0 < last.count key)

/- Whatever is done to handlers, all that is kept. -/
theorem keeps_after
    (actions : List (Action ε)) : Keeps actions := by
  have hOrder := inOrder_reached actions
  have hTidy : Tidy (reached actions) :=
    Tidy.empty.after actions
  constructor
  case numbered => exact ids_eq actions
  case distinct => exact ids_nodup
  case registered =>
    intro id hIssued
    exact exists_registration actions hIssued
  case called =>
    intro hOnce sooner key finished later hActions id events
      calls
    subst hActions
    have hCalls : calls = untilFinished finished [] events :=
      (story hOnce).1.trans (Handler.heard_eq key later _)
    have hUntil := untilFinished_spec finished [] events
    simp only [List.append_nil] at hUntil
    rw [hCalls]
    exact hUntil
  case stranger =>
    intro call hCall
    exact InOrder.empty.mem_of_mem_calls actions hCall
  case left =>
    intro hOnce sooner key finished later hActions id k
    subst hActions
    rw [(story hOnce).2.isRegistered_iff,
      Handler.survive_isSome_iff]
  case dispatched =>
    intro event last told
    have hTold : told = _ := last.dispatch_told event
    refine ⟨?_, ?_, ?_, ?_⟩
    · rw [hTold]
      exact hOrder (BusEvent.key event)
    · intro id
      rw [hTold]
      exact isRegistered_iff.symm
    · rw [hTold, List.length_map]
    · rw [hTold, count_eq]
  case removed =>
    intro key id last told next
    have hTold : told = _ := last.remove_told key id
    refine ⟨hTold, ?_, ?_⟩
    · intro hGone
      rw [hTold] at hGone
      exact hTidy.remove_of_not_registered hGone
    · intro hThere
      rw [hTold] at hThere
      refine ⟨fun hOnce => ?_, fun k n => ?_⟩
      · exact hOrder.count_remove hOnce hThere
      · exact last.isRegistered_remove key k id n
  case counted =>
    intro hOnce key
    exact hOrder.count_eq_countP hOnce key
  case listed =>
    exact ⟨OrderedMap.keys_nodup _,
      hTidy.mem_keys_iff_registered⟩

/- Keys, as events that are about themselves. -/
local instance selfEvent : BusEvent PublicKey where
  key event := event
  topic := "keys"

/-
  Of two handlers of a key, one is finished by its second call
  and the other by none.  The first is not called a third time
  and cannot be removed any more.
-/
theorem keeps_after_third_call :
    let key : PublicKey := .zero 32
    let later : List (Action PublicKey) :=
      [.register key fun _ => false, .dispatch key,
        .dispatch key, .dispatch key]
    let actions :=
      .register key (fun calls => 2 ≤ calls.length) :: later
    Keeps actions ∧
      (ids actions).Nodup ∧
      due key 0 later = [key, key, key] ∧
      eventsOf 0 (log actions) = [key, key] ∧
      eventsOf 1 (log actions) = [key, key, key] ∧
      ((reached actions).remove key 0).1 = false ∧
      ((reached actions).remove key 1).1 = true ∧
      (reached actions).keys = [key] ∧
      ((reached actions).remove key 1).2.keys = [] := by
  intro key later actions
  have hOnce : (ids actions).Nodup :=
    (keeps_after actions).distinct (by decide)
  exact ⟨keeps_after actions, hOnce, by decide, by decide,
    by decide, by decide, by decide, by decide, by decide⟩

end Handlers

end DriveMarket
