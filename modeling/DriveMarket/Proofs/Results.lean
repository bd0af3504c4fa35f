import Mathlib.Data.List.Forall2

/-
  Computations that may fail, taken apart.

  A sequence of steps succeeds when every step does, and the
  same step over a list succeeds when it does on every item.

  Key theorems include:
    * `bind_eq_ok_iff`
    * `bind_eq_error_iff`
    * `mapM_eq_ok_iff`
    * `forM_eq_ok_iff`
    * `exists_mem_of_mapM_error`
    * `mapM_inverse`
    * `Yields.bind`
    * `Yields.mapM`
-/

namespace DriveMarket

variable {ε ε' α β : Type}

------------------------------------------------------------
-- One Step after Another
------------------------------------------------------------

@[simp]
theorem ok_bind
    (a : α)
    (f : α → Except ε β) :
    ((Except.ok a : Except ε α) >>= f) = f a :=
  rfl

@[simp]
theorem error_bind
    (cause : ε)
    (f : α → Except ε β) :
    ((Except.error cause : Except ε α) >>= f) =
      .error cause :=
  rfl

@[simp]
theorem mapError_ok
    (f : ε → ε')
    (a : α) :
    (Except.ok a).mapError f = .ok a :=
  rfl

@[simp]
theorem mapError_error
    (f : ε → ε')
    (cause : ε) :
    (Except.error cause : Except ε α).mapError f =
      .error (f cause) :=
  rfl

/- Two steps succeed when the second does on the first's result. -/
theorem bind_eq_ok_iff
    {x : Except ε α}
    {f : α → Except ε β}
    {b : β} :
    x >>= f = .ok b ↔ ∃ a, x = .ok a ∧ f a = .ok b := by
  cases x with
  | error cause => simp
  | ok a => simp

/- Two steps fail where the first does, or the second after it. -/
theorem bind_eq_error_iff
    {x : Except ε α}
    {f : α → Except ε β}
    {cause : ε} :
    x >>= f = .error cause ↔
      x = .error cause ∨
        ∃ a, x = .ok a ∧ f a = .error cause := by
  cases x with
  | error cause => simp
  | ok a => simp

theorem mapError_eq_ok_iff
    {x : Except ε α}
    {f : ε → ε'}
    {a : α} :
    x.mapError f = .ok a ↔ x = .ok a := by
  cases x with
  | error cause => simp
  | ok a => simp

theorem mapError_eq_error_iff
    {x : Except ε α}
    {f : ε → ε'}
    {cause : ε'} :
    x.mapError f = .error cause ↔
      ∃ inner, x = .error inner ∧ f inner = cause := by
  cases x with
  | error inner => simp
  | ok a => simp

/- A computation that returns something succeeds. -/
theorem exists_eq_ok
    {x : Except ε α}
    (hSome : x.toOption.isSome) :
    ∃ a, x = .ok a := by
  cases x with
  | error cause => cases hSome
  | ok a => exact ⟨a, rfl⟩

------------------------------------------------------------
-- The Same Step over a List
------------------------------------------------------------

/- Steps that agree on every item agree over the list. -/
theorem mapM_congr
    {f g : α → Except ε β}
    {xs : List α}
    (hAgree : ∀ x ∈ xs, f x = g x) :
    xs.mapM f = xs.mapM g := by
  induction xs with
  | nil => rfl
  | cons x xs ih =>
      rw [List.mapM_cons, List.mapM_cons,
        hAgree x List.mem_cons_self,
        ih fun y hMem =>
          hAgree y (List.mem_cons_of_mem x hMem)]

/- A step over a list succeeds exactly item by item. -/
theorem mapM_eq_ok_iff
    {f : α → Except ε β}
    {xs : List α}
    {ys : List β} :
    xs.mapM f = .ok ys ↔
      List.Forall₂ (fun x y => f x = .ok y) xs ys := by
  induction xs generalizing ys with
  | nil =>
      rw [List.mapM_nil, List.forall₂_nil_left_iff]
      simp [pure, Except.pure, eq_comm]
  | cons x xs ih =>
      simp only [List.mapM_cons, bind_eq_ok_iff, ih]
      constructor
      · rintro ⟨y, hHead, ys', hTail, hYs⟩
        cases hYs
        exact .cons hHead hTail
      · intro hAll
        cases hAll with
        | cons hHead hTail =>
            exact ⟨_, hHead, _, hTail, rfl⟩

/- A check of a list passes exactly if it does on every item. -/
theorem forM_eq_ok_iff
    {f : α → Except ε Unit}
    {xs : List α} :
    xs.forM f = .ok () ↔ ∀ x ∈ xs, f x = .ok () := by
  induction xs with
  | nil => simp [pure, Except.pure]
  | cons x xs ih =>
      rw [List.forM, bind_eq_ok_iff, List.forall_mem_cons,
        ← ih]
      constructor
      · rintro ⟨_, hHead, hTail⟩
        exact ⟨hHead, hTail⟩
      · rintro ⟨hHead, hTail⟩
        exact ⟨(), hHead, hTail⟩

/- What every result has, all results over a list have. -/
theorem forall_mem_of_forall₂
    {R : α → β → Prop}
    {p : β → Prop}
    {xs : List α}
    {ys : List β}
    (hAll : List.Forall₂ R xs ys)
    (hRight : ∀ x y, R x y → p y) :
    ∀ y ∈ ys, p y := by
  induction hAll with
  | nil => simp
  | cons hHead hTail ih =>
      rw [List.forall_mem_cons]
      exact ⟨hRight _ _ hHead, ih⟩

/- A step over a list fails only as it does on some item. -/
theorem exists_mem_of_mapM_error
    {f : α → Except ε β}
    {xs : List α}
    {cause : ε}
    (hError : xs.mapM f = .error cause) :
    ∃ x ∈ xs, f x = .error cause := by
  induction xs with
  | nil => cases hError
  | cons x xs ih =>
      rw [List.mapM_cons, bind_eq_error_iff] at hError
      rcases hError with hHead | ⟨y, -, hRest⟩
      · exact ⟨x, List.mem_cons_self, hHead⟩
      · rw [bind_eq_error_iff] at hRest
        rcases hRest with hTail | ⟨ys, -, hPure⟩
        · rcases ih hTail with ⟨z, hMem, hFail⟩
          exact ⟨z, List.mem_cons_of_mem x hMem, hFail⟩
        · cases hPure

/- So does a check of a list. -/
theorem exists_mem_of_forM_error
    {f : α → Except ε Unit}
    {xs : List α}
    {cause : ε}
    (hError : xs.forM f = .error cause) :
    ∃ x ∈ xs, f x = .error cause := by
  induction xs with
  | nil => cases hError
  | cons x xs ih =>
      rw [List.forM, bind_eq_error_iff] at hError
      rcases hError with hHead | ⟨_, -, hTail⟩
      · exact ⟨x, List.mem_cons_self, hHead⟩
      · rcases ih hTail with ⟨y, hMem, hFail⟩
        exact ⟨y, List.mem_cons_of_mem x hMem, hFail⟩

/- What undoes a step on every item undoes it over the list. -/
theorem mapM_inverse
    {f : α → Except ε β}
    {g : β → Except ε' α}
    {xs : List α}
    {ys : List β}
    (hInverse : ∀ x y, f x = .ok y → g y = .ok x)
    (hMap : xs.mapM f = .ok ys) :
    ys.mapM g = .ok xs := by
  rw [mapM_eq_ok_iff] at hMap ⊢
  exact hMap.flip.imp fun y x => hInverse x y

/- The same, where the first step never fails. -/
theorem mapM_map_inverse
    {f : α → β}
    {g : β → Except ε α}
    (hInverse : ∀ x, g (f x) = .ok x)
    (xs : List α) :
    (xs.map f).mapM g = .ok xs := by
  rw [mapM_eq_ok_iff, List.forall₂_map_left_iff,
    List.forall₂_same]
  exact fun x _ => hInverse x

------------------------------------------------------------
-- Outcomes
------------------------------------------------------------

/-
  What can come of a computation: all that it returns meets
  one condition, and all that it fails with another.
-/
structure Yields
    (x : Except ε α)
    (returns : α → Prop)
    (fails : ε → Prop) : Prop where
  returned : ∀ a, x = .ok a → returns a
  failed : ∀ cause, x = .error cause → fails cause

namespace Yields

variable {x : Except ε α}
variable {returns : α → Prop}
variable {fails : ε → Prop}

theorem ok
    {a : α}
    (hReturns : returns a) :
    Yields (.ok a) returns fails := by
  constructor
  · rintro _ ⟨⟩
    exact hReturns
  · rintro _ ⟨⟩

theorem error
    {cause : ε}
    (hFails : fails cause) :
    Yields (.error cause) returns fails := by
  constructor
  · rintro _ ⟨⟩
  · rintro _ ⟨⟩
    exact hFails

/- What is returned was indeed returned. -/
theorem eq_ok
    (hX : Yields x returns fails) :
    Yields x (fun a => x = .ok a ∧ returns a) fails := by
  constructor
  · exact fun a hOk => ⟨hOk, hX.returned a hOk⟩
  · exact hX.failed

/- One step after another yields what the second one does. -/
theorem bind
    {f : α → Except ε β}
    {last : β → Prop}
    (hX : Yields x returns fails)
    (hF : ∀ a, returns a → Yields (f a) last fails) :
    Yields (x >>= f) last fails := by
  cases x with
  | error cause => exact error (hX.failed cause rfl)
  | ok a => exact hF a (hX.returned a rfl)

/- Weaker conditions are met as well. -/
theorem imp
    {returns' : α → Prop}
    {fails' : ε → Prop}
    (hX : Yields x returns fails)
    (hReturns : ∀ a, returns a → returns' a)
    (hFails : ∀ cause, fails cause → fails' cause) :
    Yields x returns' fails' :=
  ⟨fun a hOk => hReturns a (hX.returned a hOk),
    fun cause hError => hFails cause (hX.failed cause hError)⟩

/- How it fails does not depend on what is returned. -/
theorem any
    (hX : Yields x returns fails) :
    Yields x (fun _ => True) fails :=
  ⟨fun _ _ => trivial, hX.failed⟩

/- An error may be told as another. -/
theorem mapError
    {fails' : ε' → Prop}
    {f : ε → ε'}
    (hX : Yields x returns fails)
    (hFails : ∀ cause, fails cause → fails' (f cause)) :
    Yields (x.mapError f) returns fails' := by
  cases x with
  | error cause => exact error (hFails _ (hX.failed cause rfl))
  | ok a => exact ok (hX.returned a rfl)

/- A step over a list yields what it does item by item. -/
theorem mapM
    {f : α → Except ε β}
    {each : β → Prop}
    {xs : List α}
    (hEach : ∀ x ∈ xs, Yields (f x) each fails) :
    Yields (xs.mapM f) (fun ys => ∀ y ∈ ys, each y) fails := by
  constructor
  · intro ys hOk
    rw [mapM_eq_ok_iff] at hOk
    exact forall_mem_of_forall₂
      ((List.forall₂_and_left _ _).mpr ⟨hEach, hOk⟩)
      fun x y hBoth => hBoth.1.returned y hBoth.2
  · intro cause hError
    rcases exists_mem_of_mapM_error hError with
      ⟨x, hMem, hFail⟩
    exact (hEach x hMem).failed cause hFail

end Yields

end DriveMarket
