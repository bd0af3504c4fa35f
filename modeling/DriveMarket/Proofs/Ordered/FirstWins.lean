import DriveMarket.Proofs.Ordered.Keys

/-
  Collecting values of which the first one of a key counts.

  Items arrive one after the other.  Some are refused, and of
  the others the first one of each key is kept.  So the order
  of arrival decides only between items of one key.

  Key definitions include:
    * `OrderedMap.insertNew`
    * `OrderedMap.collect`

  Correctness is proven by:
    * `OrderedMap.get?_insertNew`
    * `OrderedMap.get?_collect`
    * `OrderedMap.collect_congr`
    * `OrderedMap.get?_collect_entries`
    * `OrderedMap.collect_entries`
-/

namespace DriveMarket

namespace OrderedMap

variable {κ α β : Type}
variable [OrderedKey κ]

------------------------------------------------------------
-- One Item
------------------------------------------------------------

/- Put a value under a key that has none. -/
def insertNew
    (map : OrderedMap κ α)
    (key : κ)
    (value : α) : OrderedMap κ α :=
  if map.contains key then
    map
  else
    map.insert key value

/- This adds that entry or none. -/
theorem mem_insertNew
    {map : OrderedMap κ α}
    {key : κ}
    {value : α}
    {entry : κ × α}
    (hMem : entry ∈ (map.insertNew key value).entries) :
    entry = (key, value) ∨ entry ∈ map.entries := by
  unfold insertNew at hMem
  split at hMem
  · exact .inr hMem
  · exact mem_put hMem

variable [DecidableEq κ]

theorem get?_insertNew
    (map : OrderedMap κ α)
    (key other : κ)
    (value : α) :
    (map.insertNew key value).get? other =
      (map.get? other).or
        (if key = other then some value else none) := by
  unfold insertNew contains
  by_cases hKey : key = other
  · subst hKey
    cases hGet : map.get? key with
    | none => simp [get?_insert_self]
    | some held => simp [hGet]
  · rw [if_neg hKey, Option.or_none]
    split
    · rfl
    · exact get?_insert_of_ne map value (Ne.symm hKey)

------------------------------------------------------------
-- Many Items
------------------------------------------------------------

/-
  Keep the value of every item that is accepted, if it is the
  first one of its key.
-/
def collect
    (accepts : β → Bool)
    (key : β → κ)
    (value : β → α) :
    List β →
    OrderedMap κ α →
    OrderedMap κ α
  | [], map => map
  | item :: rest, map =>
      collect accepts key value rest
        (if accepts item then
          map.insertNew (key item) (value item)
        else
          map)

variable {accepts : β → Bool}
variable {key : β → κ}
variable {value : β → α}

/- What is held already stays, else the first item counts. -/
theorem get?_collect
    (items : List β)
    (map : OrderedMap κ α)
    (k : κ) :
    (map.collect accepts key value items).get? k =
      (map.get? k).or
        ((items.find? fun item =>
          key item = k ∧ accepts item).map value) := by
  induction items generalizing map with
  | nil => simp [collect]
  | cons item rest ih =>
      unfold collect
      rw [ih]
      by_cases hAccepts : accepts item
      · rw [if_pos hAccepts, get?_insertNew, Option.or_assoc]
        congr 1
        by_cases hKey : key item = k
        · simp [hKey, hAccepts]
        · simp [hKey]
      · rw [if_neg hAccepts]
        simp [hAccepts]

/-
  Lists with the same items find the same, if all that could
  be found looks alike.
-/
theorem find?_map_congr
    {p : β → Bool}
    {first second : List β}
    (hSame : ∀ b, b ∈ first ↔ b ∈ second)
    (hAlike :
      ∀ a ∈ first, ∀ b ∈ first, p a → p b →
        value a = value b) :
    (first.find? p).map value = (second.find? p).map value := by
  cases hFirst : first.find? p with
  | none =>
      have hNone : second.find? p = none := by
        rw [List.find?_eq_none] at hFirst ⊢
        intro a hMem
        exact hFirst a ((hSame a).mpr hMem)
      rw [hNone]
  | some a =>
      have hMem := List.mem_of_find?_eq_some hFirst
      have hFound := List.find?_some hFirst
      cases hSecond : second.find? p with
      | none =>
          rw [List.find?_eq_none] at hSecond
          exact absurd hFound
            (hSecond a ((hSame a).mp hMem))
      | some b =>
          have hMem' := List.mem_of_find?_eq_some hSecond
          rw [Option.map_some, Option.map_some,
            hAlike a hMem b ((hSame b).mpr hMem') hFound
              (List.find?_some hSecond)]

/- If each key has one value, it does not matter who is first. -/
theorem collect_congr
    {first second : List β}
    (map : OrderedMap κ α)
    (hSame : ∀ b, b ∈ first ↔ b ∈ second)
    (hAlike :
      ∀ a ∈ first, ∀ b ∈ first,
        key a = key b → accepts a → accepts b →
          value a = value b) :
    map.collect accepts key value first =
      map.collect accepts key value second := by
  apply ext_get?
  intro k
  rw [get?_collect, get?_collect]
  congr 1
  apply find?_map_congr hSame
  intro a hMem b hMem' hFirst hSecond
  rw [decide_eq_true_eq] at hFirst hSecond
  exact hAlike a hMem b hMem' (hFirst.1.trans hSecond.1.symm)
    hFirst.2 hSecond.2

section Entries

variable {items : List β}
variable {other : OrderedMap κ α}

/- Among items that are the entries of a map, its own is found. -/
theorem find?_entries
    (hItems :
      items.map (fun item => (key item, value item)) =
        other.entries)
    (hAccepts : ∀ item ∈ items, accepts item)
    (k : κ) :
    (items.find? fun item =>
        key item = k ∧ accepts item).map value =
      other.get? k := by
  cases hFind :
      items.find? fun item => key item = k ∧ accepts item with
  | none =>
      cases hGet : other.get? k with
      | none => rfl
      | some held =>
          rw [get?_eq_some_iff, ← hItems, List.mem_map]
            at hGet
          rcases hGet with ⟨item, hMem, hEntry⟩
          cases hEntry
          rw [List.find?_eq_none] at hFind
          have hNot := hFind item hMem
          simp [hAccepts item hMem] at hNot
  | some item =>
      have hMem := List.mem_of_find?_eq_some hFind
      have hFound := List.find?_some hFind
      rw [decide_eq_true_eq] at hFound
      rw [Option.map_some, eq_comm, get?_eq_some_iff,
        ← hItems, ← hFound.1]
      exact List.mem_map_of_mem hMem

/- To the entries of one map those of another are added. -/
theorem get?_collect_entries
    (map : OrderedMap κ α)
    (hItems :
      items.map (fun item => (key item, value item)) =
        other.entries)
    (hAccepts : ∀ item ∈ items, accepts item)
    (k : κ) :
    (map.collect accepts key value items).get? k =
      (map.get? k).or (other.get? k) := by
  rw [get?_collect, find?_entries hItems hAccepts]

/-
  A map is collected again from its entries, if all of them
  are accepted.
-/
theorem collect_entries
    (map : OrderedMap κ α)
    (hItems :
      items.map (fun item => (key item, value item)) =
        map.entries)
    (hAccepts : ∀ item ∈ items, accepts item) :
    empty.collect accepts key value items = map := by
  apply ext_get?
  intro k
  rw [get?_collect_entries empty hItems hAccepts]
  exact Option.none_or

end Entries

end OrderedMap

end DriveMarket
