import DriveMarket.Bytes.Basic

/-
  Maps whose entries are kept in strictly increasing order of
  their keys.

  The order is part of the type, so two maps with the same
  lookups are equal, however they came about.

  Key definitions include:
    * `OrderedKey`
    * `OrderedMap`
    * `OrderedMap.get?`
    * `OrderedMap.insert`
    * `OrderedMap.erase`
    * `OrderedSet`

  Correctness is proven by:
    * `OrderedMap.get?_insert`
    * `OrderedMap.get?_erase`
    * `OrderedMap.ext_get?`
-/

namespace DriveMarket

------------------------------------------------------------
-- Keys
------------------------------------------------------------

/- A strict total order whose comparisons can be decided. -/
class OrderedKey (κ : Type) extends LT κ where
  decide_lt : ∀ a b : κ, Decidable (a < b)
  irrefl : ∀ a : κ, ¬ a < a
  trans : ∀ {a b c : κ}, a < b → b < c → a < c
  eq_of_not_lt : ∀ {a b : κ}, ¬ a < b → ¬ b < a → a = b

instance OrderedKey.decidableLT
    {κ : Type}
    [OrderedKey κ]
    (a b : κ) : Decidable (a < b) :=
  OrderedKey.decide_lt a b

instance
    {width : Nat} : OrderedKey (FixedBytes width) where
  decide_lt := inferInstance
  irrefl a := List.lt_irrefl a.toList
  trans h₁ h₂ := List.lt_trans h₁ h₂
  eq_of_not_lt h₁ h₂ := FixedBytes.ext (List.le_antisymm h₂ h₁)

instance : OrderedKey UInt16 where
  decide_lt := inferInstance
  irrefl a := UInt16.lt_irrefl a
  trans h₁ h₂ := UInt16.lt_trans h₁ h₂
  eq_of_not_lt h₁ h₂ :=
    UInt16.le_antisymm (UInt16.not_lt.mp h₂)
      (UInt16.not_lt.mp h₁)

------------------------------------------------------------
-- Entries
------------------------------------------------------------

namespace OrderedMap

variable {κ α : Type}
variable [OrderedKey κ]

/- Whether entries are in strictly increasing order of keys. -/
def Sorted
    (entries : List (κ × α)) : Prop :=
  entries.Pairwise (·.1 < ·.1)

/- What entries hold under a key. -/
def lookup
    (key : κ) :
    List (κ × α) →
    Option α
  | [] => none
  | (k, value) :: rest =>
      if key < k then
        none
      else if k < key then
        lookup key rest
      else
        some value

/- Entries with one more, or with the value of a key replaced. -/
def put
    (key : κ)
    (value : α) :
    List (κ × α) →
    List (κ × α)
  | [] => [(key, value)]
  | (k, old) :: rest =>
      if key < k then
        (key, value) :: (k, old) :: rest
      else if k < key then
        (k, old) :: put key value rest
      else
        (key, value) :: rest

/- Entries without those of a key. -/
def drop
    (key : κ)
    (entries : List (κ × α)) : List (κ × α) :=
  entries.filter fun entry =>
    decide (key < entry.1) || decide (entry.1 < key)

theorem mem_put
    {key : κ}
    {value : α}
    {entries : List (κ × α)}
    {entry : κ × α}
    (h : entry ∈ put key value entries) :
    entry = (key, value) ∨ entry ∈ entries := by
  induction entries with
  | nil => simpa [put] using h
  | cons head rest ih =>
      simp only [put] at h
      split at h
      · simpa using h
      · split at h
        · rcases List.mem_cons.mp h with hHead | hRest
          · exact .inr (by simp [hHead])
          · rcases ih hRest with hNew | hOld
            · exact .inl hNew
            · exact .inr (List.mem_cons_of_mem _ hOld)
        · rcases List.mem_cons.mp h with hHead | hRest
          · exact .inl hHead
          · exact .inr (List.mem_cons_of_mem _ hRest)

theorem sorted_put
    {key : κ}
    {value : α}
    {entries : List (κ × α)}
    (h : Sorted entries) :
    Sorted (put key value entries) := by
  induction entries with
  | nil => simp [put, Sorted]
  | cons head rest ih =>
      have hRest : Sorted rest := (List.pairwise_cons.mp h).2
      have hHead := (List.pairwise_cons.mp h).1
      simp only [put]
      split
      · rename_i hLt
        refine List.pairwise_cons.mpr ⟨?_, h⟩
        intro entry hMem
        rcases List.mem_cons.mp hMem with hEq | hMem
        · exact hEq ▸ hLt
        · exact OrderedKey.trans hLt (hHead entry hMem)
      · split
        · rename_i hGt
          refine List.pairwise_cons.mpr ⟨?_, ih hRest⟩
          intro entry hMem
          rcases mem_put hMem with hEq | hMem
          · exact hEq ▸ hGt
          · exact hHead entry hMem
        · rename_i hLt hGt
          have hKey := OrderedKey.eq_of_not_lt hLt hGt
          refine List.pairwise_cons.mpr ⟨?_, hRest⟩
          intro entry hMem
          exact hKey ▸ hHead entry hMem

theorem sorted_drop
    {key : κ}
    {entries : List (κ × α)}
    (h : Sorted entries) :
    Sorted (drop key entries) :=
  List.Pairwise.filter _ h

end OrderedMap

------------------------------------------------------------
-- Maps
------------------------------------------------------------

/- Entries in strictly increasing order of their keys. -/
structure OrderedMap
    (κ α : Type)
    [OrderedKey κ] where
  entries : List (κ × α)
  sorted : OrderedMap.Sorted entries

namespace OrderedMap

variable {κ α : Type}
variable [OrderedKey κ]

instance
    [DecidableEq κ]
    [DecidableEq α] : DecidableEq (OrderedMap κ α) :=
  fun a b =>
    if h : a.entries = b.entries then
      isTrue (by cases a; cases b; simp_all)
    else
      isFalse (fun hEq => h (congrArg entries hEq))

/- The map without entries. -/
def empty : OrderedMap κ α :=
  ⟨[], List.Pairwise.nil⟩

/- The value under a key, if there is one. -/
def get?
    (map : OrderedMap κ α)
    (key : κ) : Option α :=
  lookup key map.entries

/- Whether there is a value under a key. -/
def contains
    (map : OrderedMap κ α)
    (key : κ) : Bool :=
  (map.get? key).isSome

/- The number of entries. -/
def size
    (map : OrderedMap κ α) : Nat :=
  map.entries.length

/- The keys, in increasing order. -/
def keys
    (map : OrderedMap κ α) : List κ :=
  map.entries.map (·.1)

/- The values, in increasing order of their keys. -/
def values
    (map : OrderedMap κ α) : List α :=
  map.entries.map (·.2)

/- Put a value under a key, over any value it had. -/
def insert
    (map : OrderedMap κ α)
    (key : κ)
    (value : α) : OrderedMap κ α :=
  ⟨put key value map.entries, sorted_put map.sorted⟩

/- Remove a key with its value. -/
def erase
    (map : OrderedMap κ α)
    (key : κ) : OrderedMap κ α :=
  ⟨drop key map.entries, sorted_drop map.sorted⟩

/- The map of some entries; of equal keys the last one counts. -/
def ofList
    (entries : List (κ × α)) : OrderedMap κ α :=
  entries.foldl (fun map entry => map.insert entry.1 entry.2)
    empty

------------------------------------------------------------
-- Lookups
------------------------------------------------------------

theorem lookup_eq_some_iff
    {key : κ}
    {value : α}
    {entries : List (κ × α)}
    (h : Sorted entries) :
    lookup key entries = some value ↔
      (key, value) ∈ entries := by
  induction entries with
  | nil => simp [lookup]
  | cons head rest ih =>
      obtain ⟨k, old⟩ := head
      have hRest : Sorted rest := (List.pairwise_cons.mp h).2
      have hHead := (List.pairwise_cons.mp h).1
      simp only [lookup]
      split
      · rename_i hLt
        constructor
        · intro hNone
          cases hNone
        · intro hMem
          rcases List.mem_cons.mp hMem with hEq | hMem
          · cases hEq
            exact absurd hLt (OrderedKey.irrefl _)
          · exact absurd
              (OrderedKey.trans hLt (hHead _ hMem))
              (OrderedKey.irrefl _)
      · split
        · rename_i hGt
          rw [ih hRest]
          constructor
          · exact List.mem_cons_of_mem _
          · intro hMem
            rcases List.mem_cons.mp hMem with hEq | hMem
            · cases hEq
              exact absurd hGt (OrderedKey.irrefl _)
            · exact hMem
        · rename_i hLt hGt
          have hKey := OrderedKey.eq_of_not_lt hLt hGt
          subst hKey
          constructor
          · intro hSome
            cases hSome
            exact List.mem_cons_self
          · intro hMem
            rcases List.mem_cons.mp hMem with hEq | hMem
            · cases hEq
              rfl
            · exact absurd (hHead _ hMem)
                (OrderedKey.irrefl _)

/- A value is found exactly under the keys of its entries. -/
theorem get?_eq_some_iff
    {map : OrderedMap κ α}
    {key : κ}
    {value : α} :
    map.get? key = some value ↔
      (key, value) ∈ map.entries :=
  lookup_eq_some_iff map.sorted

theorem lookup_put
    (key other : κ)
    (value : α)
    (entries : List (κ × α)) :
    lookup other (put key value entries) =
      if other < key ∨ key < other then
        lookup other entries
      else
        some value := by
  induction entries with
  | nil =>
      simp only [put, lookup]
      by_cases h₁ : other < key
      · simp [h₁]
      · by_cases h₂ : key < other <;> simp [h₁, h₂]
  | cons head rest ih =>
      obtain ⟨k, old⟩ := head
      simp only [put]
      split
      · rename_i hLt
        simp only [lookup]
        by_cases h₁ : other < key
        · simp [h₁, OrderedKey.trans h₁ hLt]
        · by_cases h₂ : key < other <;> simp [h₁, h₂]
      · split
        · rename_i hGt
          simp only [lookup, ih]
          by_cases h₁ : other < k
          · simp [h₁, OrderedKey.trans h₁ hGt]
          · by_cases h₂ : k < other
            · simp [h₁, h₂]
            · have hEq := OrderedKey.eq_of_not_lt h₁ h₂
              subst hEq
              simp [hGt, OrderedKey.irrefl]
        · rename_i hLt hGt
          have hEq := OrderedKey.eq_of_not_lt hLt hGt
          subst hEq
          simp only [lookup]
          by_cases h₁ : other < key
          · simp [h₁]
          · by_cases h₂ : key < other <;> simp [h₁, h₂]

/- Putting a value changes the lookup of its key only. -/
theorem get?_insert
    (map : OrderedMap κ α)
    (key other : κ)
    (value : α) :
    (map.insert key value).get? other =
      if other < key ∨ key < other then
        map.get? other
      else
        some value :=
  lookup_put key other value map.entries

/- Removing a key changes the lookup of that key only. -/
theorem get?_erase
    (map : OrderedMap κ α)
    (key other : κ) :
    (map.erase key).get? other =
      if other < key ∨ key < other then
        map.get? other
      else
        none := by
  apply Option.ext
  intro value
  split
  · rename_i hNe
    rw [get?_eq_some_iff, get?_eq_some_iff]
    simp only [erase, drop, List.mem_filter,
      Bool.or_eq_true, decide_eq_true_eq]
    constructor
    · exact And.left
    · intro hMem
      exact ⟨hMem, hNe.symm⟩
  · rename_i hEq
    rw [get?_eq_some_iff]
    simp only [erase, drop, List.mem_filter,
      Bool.or_eq_true, decide_eq_true_eq]
    constructor
    · intro hMem
      exact absurd hMem.2.symm hEq
    · intro hNone
      cases hNone

theorem entries_eq_of_mem_iff
    {a b : List (κ × α)}
    (ha : Sorted a)
    (hb : Sorted b)
    (h : ∀ entry, entry ∈ a ↔ entry ∈ b) : a = b := by
  induction a generalizing b with
  | nil =>
      cases b with
      | nil => rfl
      | cons head rest =>
          exact absurd
            ((h head).mpr List.mem_cons_self)
            List.not_mem_nil
  | cons head rest ih =>
      cases b with
      | nil =>
          exact absurd
            ((h head).mp List.mem_cons_self)
            List.not_mem_nil
      | cons head' rest' =>
          have hHead := (List.pairwise_cons.mp ha).1
          have hHead' := (List.pairwise_cons.mp hb).1
          have hEq : head = head' := by
            rcases List.mem_cons.mp
              ((h head).mp List.mem_cons_self) with hEq | hMem
            · exact hEq
            · rcases List.mem_cons.mp
                ((h head').mpr List.mem_cons_self) with
                hEq' | hMem'
              · exact hEq'.symm
              · exact absurd
                  (OrderedKey.trans (hHead' _ hMem)
                    (hHead _ hMem'))
                  (OrderedKey.irrefl _)
          subst hEq
          congr 1
          refine ih (List.pairwise_cons.mp ha).2
            (List.pairwise_cons.mp hb).2 ?_
          intro entry
          constructor
          · intro hMem
            rcases List.mem_cons.mp
              ((h entry).mp (List.mem_cons_of_mem _ hMem)) with
              hEq | hMem'
            · exact absurd (hEq ▸ hHead entry hMem)
                (OrderedKey.irrefl _)
            · exact hMem'
          · intro hMem
            rcases List.mem_cons.mp
              ((h entry).mpr (List.mem_cons_of_mem _ hMem)) with
              hEq | hMem'
            · exact absurd (hEq ▸ hHead' entry hMem)
                (OrderedKey.irrefl _)
            · exact hMem'

/- Maps with the same lookups are equal. -/
theorem ext_get?
    {a b : OrderedMap κ α}
    (h : ∀ key, a.get? key = b.get? key) : a = b := by
  have hEntries : a.entries = b.entries := by
    apply entries_eq_of_mem_iff a.sorted b.sorted
    intro entry
    obtain ⟨key, value⟩ := entry
    rw [← get?_eq_some_iff, ← get?_eq_some_iff, h]
  cases a
  cases b
  simp_all

end OrderedMap

------------------------------------------------------------
-- Sets
------------------------------------------------------------

/- Keys in strictly increasing order. -/
abbrev OrderedSet
    (κ : Type)
    [OrderedKey κ] :=
  OrderedMap κ Unit

namespace OrderedSet

variable {κ : Type}
variable [OrderedKey κ]

/- The set of some keys. -/
def ofList
    (keys : List κ) : OrderedSet κ :=
  OrderedMap.ofList (keys.map (·, ()))

/- The set with one more key. -/
def add
    (set : OrderedSet κ)
    (key : κ) : OrderedSet κ :=
  OrderedMap.insert set key ()

end OrderedSet

end DriveMarket
