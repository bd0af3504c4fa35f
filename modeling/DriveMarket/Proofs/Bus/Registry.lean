import DriveMarket.Bus.Handlers
import DriveMarket.Proofs.Ordered.Keys

/-
  What is done to the handlers of each key.

  Handlers do not affect each other: an action does to each of
  them what it would do to it alone, and only a registration
  adds one, behind all others of its key.  A key is kept as
  long as it has handlers, so that the keys listed are those
  of the handlers.

  Key definitions include:
    * `Handlers.Action`
    * `Handlers.after`
    * `Handler.step`
    * `Handlers.ofKey`
    * `Handlers.Tidy`

  Correctness is proven by:
    * `Handlers.remove_told`
    * `Handlers.dispatch_told`
    * `Handlers.Tidy.mem_keys_iff`
    * `Handlers.Tidy.after`
    * `Handlers.ofKey_act`
-/

namespace DriveMarket

variable {ε : Type}

------------------------------------------------------------
-- Actions
------------------------------------------------------------

namespace Handlers

/- What can be done to handlers. -/
inductive Action (ε : Type) where
  | register (key : PublicKey) (finished : List ε → Bool)
  | remove (key : PublicKey) (id : UInt64)
  | dispatch (event : ε)

/- Whether an action registers a handler. -/
def Action.isRegister : Action ε → Bool
  | .register _ _ => true
  | _ => false

variable [BusEvent ε]

/- The handlers after an action. -/
def act
    (handlers : Handlers ε) : Action ε → Handlers ε
  | .register key finished =>
      (handlers.register key finished).2
  | .remove key id => (handlers.remove key id).2
  | .dispatch event => (handlers.dispatch event).2

/- The handlers after some actions. -/
def after
    (handlers : Handlers ε)
    (actions : List (Action ε)) : Handlers ε :=
  actions.foldl act handlers

end Handlers

------------------------------------------------------------
-- One Handler
------------------------------------------------------------

namespace Handler

/- What a call leaves of a handler. -/
def afterCall
    (event : ε)
    (handler : Handler ε) : Option (Handler ε) :=
  if (handler.call event).1 then
    none
  else
    some (handler.call event).2

theorem afterCall_eq
    (event : ε)
    (handler : Handler ε) :
    handler.afterCall event =
      if handler.finished (event :: handler.calls) then
        none
      else
        some {
          handler with calls := event :: handler.calls } :=
  rfl

/- Each handler is called, and those not finished are left. -/
theorem callEach_eq
    (event : ε)
    (handlers : List (Handler ε)) :
    callEach event handlers =
      (handlers.map (·.id),
        handlers.filterMap (·.afterCall event)) := by
  induction handlers with
  | nil => rfl
  | cons handler rest ih =>
      rw [callEach, ih]
      by_cases hDone : (handler.call event).1
      · simp only [afterCall, hDone, if_true,
          List.filterMap_cons]
        rfl
      · simp only [afterCall, hDone, if_false,
          List.filterMap_cons, Bool.false_eq_true]
        rfl

variable [BusEvent ε]

/- What an action makes of a handler of a key. -/
def step
    (key : PublicKey)
    (action : Handlers.Action ε)
    (handler : Handler ε) : Option (Handler ε) :=
  match action with
  | .register _ _ => some handler
  | .remove k id =>
      if k = key ∧ id = handler.id then
        none
      else
        some handler
  | .dispatch event =>
      if BusEvent.key event = key then
        handler.afterCall event
      else
        some handler

/- A handler keeps its id. -/
theorem id_of_step
    {key : PublicKey}
    {action : Handlers.Action ε}
    {handler next : Handler ε}
    (hNext : handler.step key action = some next) :
    next.id = handler.id := by
  cases action with
  | register k finished =>
      cases hNext
      rfl
  | remove k id =>
      rw [step] at hNext
      split at hNext
      · cases hNext
      · cases hNext
        rfl
  | dispatch event =>
      rw [step, afterCall] at hNext
      split at hNext
      · split at hNext
        · cases hNext
        · cases hNext
          rfl
      · cases hNext
        rfl

/- The ids of what an action leaves are among those before. -/
theorem ids_filterMap_step
    (key : PublicKey)
    (action : Handlers.Action ε)
    (handlers : List (Handler ε)) :
    ((handlers.filterMap (·.step key action)).map
        (·.id)).Sublist (handlers.map (·.id)) := by
  induction handlers with
  | nil => exact List.Sublist.refl _
  | cons handler rest ih =>
      rw [List.filterMap_cons, List.map_cons]
      cases hStep : handler.step key action with
      | none => exact ih.cons _
      | some next =>
          dsimp only
          rw [List.map_cons, id_of_step hStep]
          exact ih.cons_cons _

end Handler

------------------------------------------------------------
-- The Lists of Keys
------------------------------------------------------------

namespace Handlers

/- The handlers of a key. -/
def ofKey
    (handlers : Handlers ε)
    (key : PublicKey) : List (Handler ε) :=
  (handlers.lists.get? key).getD []

/- Whether a handler is registered under a key. -/
def isRegistered
    (handlers : Handlers ε)
    (key : PublicKey)
    (id : UInt64) : Bool :=
  (handlers.ofKey key).any (·.id = id)

/- No key is kept without handlers. -/
def Tidy
    (handlers : Handlers ε) : Prop :=
  ∀ key, handlers.lists.get? key ≠ some []

theorem isRegistered_iff
    {handlers : Handlers ε}
    {key : PublicKey}
    {id : UInt64} :
    handlers.isRegistered key id ↔
      id ∈ (handlers.ofKey key).map (·.id) := by
  simp [isRegistered]

theorem count_eq
    (handlers : Handlers ε)
    (key : PublicKey) :
    handlers.count key = (handlers.ofKey key).length := by
  unfold count ofKey
  cases handlers.lists.get? key <;> rfl

theorem ofKey_of_get
    {handlers : Handlers ε}
    {key : PublicKey}
    {list : List (Handler ε)}
    (hGet : handlers.lists.get? key = some list) :
    handlers.ofKey key = list := by
  rw [ofKey, hGet]
  rfl

theorem ofKey_of_get_none
    {handlers : Handlers ε}
    {key : PublicKey}
    (hGet : handlers.lists.get? key = none) :
    handlers.ofKey key = [] := by
  rw [ofKey, hGet]
  rfl

theorem Tidy.empty : Tidy (.empty : Handlers ε) := by
  intro key hGet
  cases hGet

/- In a tidy map, a key is listed if it has handlers. -/
theorem Tidy.mem_keys_iff
    {handlers : Handlers ε}
    {key : PublicKey}
    (hTidy : Tidy handlers) :
    key ∈ handlers.keys ↔ handlers.ofKey key ≠ [] := by
  rw [keys, OrderedMap.mem_keys_iff, OrderedMap.contains]
  cases hGet : handlers.lists.get? key with
  | none => simp [ofKey_of_get_none hGet]
  | some list =>
      rw [ofKey_of_get hGet]
      have hSome : list ≠ [] := by
        rintro rfl
        exact hTidy key hGet
      simp [hSome]

/- What is put back is found again, under its key alone. -/
theorem get?_putBack
    (handlers : Handlers ε)
    (key k : PublicKey)
    (left : List (Handler ε)) :
    (handlers.putBack key left).lists.get? k =
      if k = key then
        if left.isEmpty then none else some left
      else
        handlers.lists.get? k := by
  unfold putBack
  by_cases hKey : k = key
  · subst hKey
    by_cases hEmpty : left.isEmpty
    · simp [hEmpty, OrderedMap.get?_erase, OrderedKey.irrefl]
    · simp [hEmpty, OrderedMap.get?_insert_self]
  · by_cases hEmpty : left.isEmpty
    · simp [hEmpty, OrderedMap.get?_erase,
        OrderedKey.lt_or_lt_iff_ne, hKey]
    · simp [hEmpty, OrderedMap.get?_insert_of_ne, hKey]

theorem ofKey_putBack
    (handlers : Handlers ε)
    (key k : PublicKey)
    (left : List (Handler ε)) :
    (handlers.putBack key left).ofKey k =
      if k = key then left else handlers.ofKey k := by
  rw [ofKey, get?_putBack]
  by_cases hKey : k = key
  · rw [if_pos hKey, if_pos hKey]
    cases left <;> rfl
  · rw [if_neg hKey, if_neg hKey]
    rfl

theorem Tidy.putBack
    {handlers : Handlers ε}
    (hTidy : Tidy handlers)
    (key : PublicKey)
    (left : List (Handler ε)) :
    Tidy (handlers.putBack key left) := by
  intro k
  rw [get?_putBack]
  split
  · cases left <;> simp
  · exact hTidy k

/- To put back what is there changes nothing. -/
theorem Tidy.putBack_self
    {handlers : Handlers ε}
    {key : PublicKey}
    {list : List (Handler ε)}
    (hTidy : Tidy handlers)
    (hGet : handlers.lists.get? key = some list) :
    handlers.putBack key list = handlers := by
  have hLists :
      (handlers.putBack key list).lists = handlers.lists := by
    apply OrderedMap.ext_get?
    intro k
    rw [get?_putBack]
    split
    · rename_i hKey
      have hSome : ¬ list.isEmpty := by
        intro hEmpty
        rw [List.isEmpty_iff.mp hEmpty] at hGet
        exact hTidy key hGet
      rw [if_neg hSome, hKey, hGet]
    · rfl
  exact congrArg (Handlers.mk handlers.nextId) hLists

------------------------------------------------------------
-- What Is Done to a Key
------------------------------------------------------------

/- A newcomer stands behind all others of its key. -/
theorem ofKey_register
    (handlers : Handlers ε)
    (key k : PublicKey)
    (finished : List ε → Bool) :
    (handlers.register key finished).2.ofKey k =
      if k = key then
        handlers.ofKey key ++ [⟨handlers.nextId, finished, []⟩]
      else
        handlers.ofKey k := by
  unfold ofKey register
  by_cases hKey : k = key
  · subst hKey
    simp [OrderedMap.get?_insert_self]
  · simp [OrderedMap.get?_insert_of_ne, hKey]

theorem Tidy.register
    {handlers : Handlers ε}
    (hTidy : Tidy handlers)
    (key : PublicKey)
    (finished : List ε → Bool) :
    Tidy (handlers.register key finished).2 := by
  intro k
  unfold Handlers.register
  by_cases hKey : k = key
  · subst hKey
    simp [OrderedMap.get?_insert_self]
  · simpa [OrderedMap.get?_insert_of_ne, hKey] using hTidy k

theorem remove_of_get_none
    {handlers : Handlers ε}
    {key : PublicKey}
    (id : UInt64)
    (hGet : handlers.lists.get? key = none) :
    handlers.remove key id = (false, handlers) := by
  rw [remove, hGet]

theorem remove_of_get
    {handlers : Handlers ε}
    {key : PublicKey}
    {list : List (Handler ε)}
    (id : UInt64)
    (hGet : handlers.lists.get? key = some list) :
    handlers.remove key id =
      ((list.filter (·.id != id)).length != list.length,
        handlers.putBack key (list.filter (·.id != id))) := by
  rw [remove, hGet]

/- To remove a handler is to keep the others of its key. -/
theorem ofKey_remove
    (handlers : Handlers ε)
    (key k : PublicKey)
    (id : UInt64) :
    (handlers.remove key id).2.ofKey k =
      if k = key then
        (handlers.ofKey key).filter (·.id != id)
      else
        handlers.ofKey k := by
  cases hGet : handlers.lists.get? key with
  | none =>
      have hNobody := ofKey_of_get_none hGet
      rw [remove_of_get_none id hGet, hNobody]
      split
      · rename_i hKey
        rw [hKey]
        exact hNobody
      · rfl
  | some list =>
      rw [remove_of_get id hGet, ofKey_of_get hGet]
      exact ofKey_putBack handlers key k _

/- It is told that one was removed if one was there. -/
theorem remove_told
    (handlers : Handlers ε)
    (key : PublicKey)
    (id : UInt64) :
    (handlers.remove key id).1 =
      handlers.isRegistered key id := by
  unfold isRegistered
  cases hGet : handlers.lists.get? key with
  | none =>
      rw [remove_of_get_none id hGet, ofKey_of_get_none hGet]
      rfl
  | some list =>
      rw [remove_of_get id hGet, ofKey_of_get hGet,
        Bool.eq_iff_iff, bne_iff_ne, ne_eq,
        List.length_filter_eq_length_iff, List.any_eq_true]
      simp

theorem isRegistered_remove
    (handlers : Handlers ε)
    (key k : PublicKey)
    (id n : UInt64) :
    (handlers.remove key id).2.isRegistered k n ↔
      handlers.isRegistered k n ∧ ¬ (k = key ∧ n = id) := by
  rw [isRegistered, isRegistered, ofKey_remove]
  by_cases hKey : k = key
  · subst hKey
    by_cases hId : n = id
    · subst hId
      simp
    · simp only [if_true, List.any_eq_true, List.mem_filter,
        bne_iff_ne, decide_eq_true_eq, hId, and_false,
        not_false_eq_true, and_true]
      constructor
      · rintro ⟨handler, ⟨hMem, -⟩, hThis⟩
        exact ⟨handler, hMem, hThis⟩
      · rintro ⟨handler, hMem, rfl⟩
        exact ⟨handler, ⟨hMem, hId⟩, rfl⟩
  · simp [hKey]

/- If none was there, nothing changes. -/
theorem Tidy.remove_of_not_registered
    {handlers : Handlers ε}
    {key : PublicKey}
    {id : UInt64}
    (hTidy : Tidy handlers)
    (hGone : ¬ handlers.isRegistered key id) :
    (handlers.remove key id).2 = handlers := by
  cases hGet : handlers.lists.get? key with
  | none => rw [remove_of_get_none id hGet]
  | some list =>
      have hAll : list.filter (·.id != id) = list := by
        rw [isRegistered_iff, ofKey_of_get hGet] at hGone
        rw [List.filter_eq_self]
        intro handler hMem
        rw [bne_iff_ne]
        rintro rfl
        exact hGone (List.mem_map_of_mem hMem)
      rw [remove_of_get id hGet, hAll]
      exact hTidy.putBack_self hGet

theorem Tidy.remove
    {handlers : Handlers ε}
    (hTidy : Tidy handlers)
    (key : PublicKey)
    (id : UInt64) : Tidy (handlers.remove key id).2 := by
  cases hGet : handlers.lists.get? key with
  | none =>
      rw [remove_of_get_none id hGet]
      exact hTidy
  | some list =>
      rw [remove_of_get id hGet]
      exact hTidy.putBack key _

variable [BusEvent ε]

theorem dispatch_of_get_none
    {handlers : Handlers ε}
    {event : ε}
    (hGet :
      handlers.lists.get? (BusEvent.key event) = none) :
    handlers.dispatch event = (⟨0, []⟩, handlers) := by
  simp only [dispatch, hGet]

theorem dispatch_of_get
    {handlers : Handlers ε}
    {event : ε}
    {list : List (Handler ε)}
    (hGet :
      handlers.lists.get? (BusEvent.key event) = some list) :
    handlers.dispatch event =
      (⟨list.length, list.map (·.id)⟩,
        handlers.putBack (BusEvent.key event)
          (list.filterMap (·.afterCall event))) := by
  simp only [dispatch, hGet, Handler.callEach_eq]

/- All handlers of the event's key are called, in order. -/
theorem dispatch_told
    (handlers : Handlers ε)
    (event : ε) :
    (handlers.dispatch event).1 =
      ⟨(handlers.ofKey (BusEvent.key event)).length,
        (handlers.ofKey (BusEvent.key event)).map
          (·.id)⟩ := by
  cases hGet : handlers.lists.get? (BusEvent.key event) with
  | none =>
      rw [dispatch_of_get_none hGet, ofKey_of_get_none hGet]
      rfl
  | some list =>
      rw [dispatch_of_get hGet, ofKey_of_get hGet]

/- Those that the call does not finish are left. -/
theorem ofKey_dispatch
    (handlers : Handlers ε)
    (event : ε)
    (k : PublicKey) :
    (handlers.dispatch event).2.ofKey k =
      if k = BusEvent.key event then
        (handlers.ofKey k).filterMap (·.afterCall event)
      else
        handlers.ofKey k := by
  cases hGet : handlers.lists.get? (BusEvent.key event) with
  | none =>
      rw [dispatch_of_get_none hGet]
      split
      · rename_i hKey
        rw [hKey, ofKey_of_get_none hGet]
        rfl
      · rfl
  | some list =>
      rw [dispatch_of_get hGet, ofKey_putBack]
      split
      · rename_i hKey
        rw [hKey, ofKey_of_get hGet]
      · rfl

theorem Tidy.dispatch
    {handlers : Handlers ε}
    (hTidy : Tidy handlers)
    (event : ε) : Tidy (handlers.dispatch event).2 := by
  cases hGet : handlers.lists.get? (BusEvent.key event) with
  | none =>
      rw [dispatch_of_get_none hGet]
      exact hTidy
  | some list =>
      rw [dispatch_of_get hGet]
      exact hTidy.putBack _ _

/- Whatever is done, no key is kept without handlers. -/
theorem Tidy.act
    {handlers : Handlers ε}
    (hTidy : Tidy handlers)
    (action : Action ε) : Tidy (handlers.act action) := by
  cases action with
  | register key finished => exact hTidy.register key finished
  | remove key id => exact hTidy.remove key id
  | dispatch event => exact hTidy.dispatch event

theorem Tidy.after
    {handlers : Handlers ε}
    (hTidy : Tidy handlers)
    (actions : List (Action ε)) :
    Tidy (handlers.after actions) := by
  induction actions generalizing handlers with
  | nil => exact hTidy
  | cons action actions ih => exact ih (hTidy.act action)

/- The handler that an action adds to a key. -/
def Action.newcomer
    (key : PublicKey)
    (id : UInt64) : Action ε → Option (Handler ε)
  | .register k finished =>
      if k = key then some ⟨id, finished, []⟩ else none
  | _ => none

/- An action treats each handler of a key by itself. -/
theorem ofKey_act
    (handlers : Handlers ε)
    (action : Action ε)
    (key : PublicKey) :
    (handlers.act action).ofKey key =
      (handlers.ofKey key).filterMap (·.step key action) ++
        (action.newcomer key handlers.nextId).toList := by
  cases action with
  | register k finished =>
      have hAll :
          (handlers.ofKey key).filterMap
              (·.step key (.register k finished)) =
            handlers.ofKey key :=
        List.filterMap_some
      rw [hAll, act, ofKey_register]
      by_cases hKey : key = k
      · subst hKey
        simp [Action.newcomer]
      · simp [Action.newcomer, hKey, Ne.symm hKey]
  | remove k id =>
      rw [act, ofKey_remove]
      by_cases hKey : key = k
      · subst hKey
        have hStep :
            (fun handler : Handler ε =>
              handler.step key (.remove key id)) =
              Option.guard (·.id != id) := by
          funext handler
          by_cases hThis : id = handler.id
          · simp [Handler.step, Option.guard, hThis]
          · simp [Handler.step, Option.guard, hThis,
              Ne.symm hThis]
        rw [if_pos rfl, hStep, List.filterMap_eq_filter]
        exact (List.append_nil _).symm
      · have hStep :
            (fun handler : Handler ε =>
              handler.step key (.remove k id)) = some := by
          funext handler
          simp [Handler.step, Ne.symm hKey]
        rw [if_neg hKey, hStep, List.filterMap_some]
        exact (List.append_nil _).symm
  | dispatch event =>
      rw [act, ofKey_dispatch]
      by_cases hKey : key = BusEvent.key event
      · have hStep :
            (fun handler : Handler ε =>
              handler.step key (.dispatch event)) =
              (·.afterCall event) := by
          funext handler
          simp [Handler.step, hKey]
        rw [if_pos hKey, hStep]
        exact (List.append_nil _).symm
      · have hStep :
            (fun handler : Handler ε =>
              handler.step key (.dispatch event)) = some := by
          funext handler
          simp [Handler.step, Ne.symm hKey]
        rw [if_neg hKey, hStep, List.filterMap_some]
        exact (List.append_nil _).symm

end Handlers

end DriveMarket
