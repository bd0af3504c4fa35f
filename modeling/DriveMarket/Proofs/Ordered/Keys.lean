import DriveMarket.Ordered.Map
import Mathlib.Data.List.Perm.Subperm

/-
  Which keys a map has.

  The keys come in increasing order, each once, so two maps
  that contain the same keys list them alike.

  Correctness is proven by:
    * `OrderedMap.contains_insert`
    * `OrderedMap.contains_erase`
    * `OrderedMap.mem_keys_iff`
    * `OrderedMap.size_insert_of_new`
    * `OrderedMap.keys_increasing`
    * `OrderedMap.keys_eq_of_contains`
    * `OrderedMap.size_eq_iff`
    * `OrderedSet.contains_ofList`
    * `OrderedSet.contains_foldl_erase`
-/

namespace DriveMarket

variable {κ α β : Type}
variable [OrderedKey κ]

/- Of two keys that differ, one comes first. -/
theorem OrderedKey.lt_or_lt_iff_ne
    {a b : κ} :
    a < b ∨ b < a ↔ a ≠ b := by
  constructor
  · rintro (hLess | hMore) hEqual
    · subst hEqual
      exact OrderedKey.irrefl a hLess
    · subst hEqual
      exact OrderedKey.irrefl a hMore
  · intro hNe
    by_cases hLess : a < b
    · exact .inl hLess
    · by_cases hMore : b < a
      · exact .inr hMore
      · exact absurd (OrderedKey.eq_of_not_lt hLess hMore) hNe

namespace OrderedMap

------------------------------------------------------------
-- Single Keys
------------------------------------------------------------

theorem get?_insert_self
    (map : OrderedMap κ α)
    (key : κ)
    (value : α) :
    (map.insert key value).get? key = some value := by
  rw [get?_insert, if_neg]
  rintro (hLess | hMore)
  · exact OrderedKey.irrefl key hLess
  · exact OrderedKey.irrefl key hMore

theorem get?_insert_of_ne
    {key other : κ}
    (map : OrderedMap κ α)
    (value : α)
    (hNe : other ≠ key) :
    (map.insert key value).get? other = map.get? other := by
  rw [get?_insert, if_pos (OrderedKey.lt_or_lt_iff_ne.mpr hNe)]

/- Putting a value adds its key and no other. -/
theorem contains_insert
    [DecidableEq κ]
    (map : OrderedMap κ α)
    (key other : κ)
    (value : α) :
    (map.insert key value).contains other =
      (decide (other = key) || map.contains other) := by
  unfold contains
  by_cases hEqual : other = key
  · subst hEqual
    simp [get?_insert_self]
  · simp [get?_insert_of_ne map value hEqual, hEqual]

/- Removing a key takes it and no other. -/
theorem contains_erase
    [DecidableEq κ]
    (map : OrderedMap κ α)
    (key other : κ) :
    (map.erase key).contains other =
      (!decide (other = key) && map.contains other) := by
  unfold contains
  rw [get?_erase]
  by_cases hEqual : other = key
  · subst hEqual
    simp [OrderedKey.irrefl]
  · simp [OrderedKey.lt_or_lt_iff_ne, hEqual]

/- The keys listed are those that have a value. -/
theorem mem_keys_iff
    {map : OrderedMap κ α}
    {key : κ} :
    key ∈ map.keys ↔ map.contains key := by
  unfold keys contains
  rw [List.mem_map, Option.isSome_iff_exists]
  constructor
  · rintro ⟨⟨_, value⟩, hMem, rfl⟩
    exact ⟨value, get?_eq_some_iff.mpr hMem⟩
  · rintro ⟨value, hGet⟩
    exact ⟨(key, value), get?_eq_some_iff.mp hGet, rfl⟩

theorem length_put
    {key : κ}
    {entries : List (κ × α)}
    (value : α)
    (hNew : lookup key entries = none) :
    (put key value entries).length = entries.length + 1 := by
  induction entries with
  | nil => rfl
  | cons head rest ih =>
      rcases head with ⟨k, old⟩
      unfold lookup at hNew
      unfold put
      by_cases hLess : key < k
      · simp [hLess]
      · by_cases hMore : k < key
        · simp only [hLess, hMore, if_true, if_false]
            at hNew ⊢
          rw [List.length_cons, ih hNew, List.length_cons]
        · simp [hLess, hMore] at hNew

/- A new key makes a map larger by one. -/
theorem size_insert_of_new
    {map : OrderedMap κ α}
    {key : κ}
    (value : α)
    (hNew : ¬ map.contains key) :
    (map.insert key value).size = map.size + 1 := by
  unfold contains at hNew
  rw [Bool.not_eq_true, Option.isSome_eq_false_iff,
    Option.isNone_iff_eq_none] at hNew
  exact length_put value hNew

------------------------------------------------------------
-- All Keys
------------------------------------------------------------

theorem keys_increasing
    (map : OrderedMap κ α) :
    map.keys.Pairwise (· < ·) :=
  List.pairwise_map.mpr map.sorted

/- Maps that contain the same keys list the same keys. -/
theorem keys_eq_of_contains
    {a : OrderedMap κ α}
    {b : OrderedMap κ β}
    (hSame : ∀ key, a.contains key = b.contains key) :
    a.keys = b.keys := by
  have hPairs :
      a.keys.map (·, ()) = b.keys.map (·, ()) := by
    apply entries_eq_of_mem_iff
    · exact List.pairwise_map.mpr a.keys_increasing
    · exact List.pairwise_map.mpr b.keys_increasing
    · intro entry
      simp only [List.mem_map, mem_keys_iff, hSame]
  have hKeys := congrArg (List.map Prod.fst) hPairs
  simpa [Function.comp_def] using hKeys

theorem keys_nodup
    (map : OrderedMap κ α) :
    map.keys.Nodup :=
  map.keys_increasing.imp fun hLess =>
    OrderedKey.lt_or_lt_iff_ne.mp (.inl hLess)

/-
  A map whose keys are among those of another is as large only
  if it has them all.
-/
theorem size_eq_iff
    {a : OrderedMap κ α}
    {b : OrderedMap κ β}
    (hAmong : ∀ key, a.contains key → b.contains key) :
    a.size = b.size ↔
      ∀ key, b.contains key → a.contains key := by
  simp only [← mem_keys_iff] at hAmong ⊢
  have hSub : a.keys.Subperm b.keys :=
    List.subperm_of_subset a.keys_nodup hAmong
  have hSizeA : a.keys.length = a.size := List.length_map _
  have hSizeB : b.keys.length = b.size := List.length_map _
  rw [← hSizeA, ← hSizeB]
  constructor
  · intro hSize key hMem
    have hPerm :=
      hSub.perm_of_length_le (Nat.le_of_eq hSize.symm)
    exact hPerm.mem_iff.mpr hMem
  · intro hAll
    have hBack := List.subperm_of_subset b.keys_nodup hAll
    exact (hSub.antisymm hBack).length_eq

end OrderedMap

namespace OrderedSet

/- Adding keys one after the other adds those and no others. -/
theorem contains_foldl_insert
    {key : κ}
    (keys : List κ)
    (set : OrderedSet κ) :
    ((keys.map (·, ())).foldl
        (fun map entry => map.insert entry.1 entry.2)
        set).contains key ↔
      key ∈ keys ∨ set.contains key := by
  classical
  induction keys generalizing set with
  | nil => simp
  | cons head keys ih =>
      rw [List.map_cons, List.foldl_cons, ih,
        OrderedMap.contains_insert]
      simp [or_assoc, or_left_comm]

/- A set has exactly the keys that it is made of. -/
theorem contains_ofList
    {key : κ}
    (keys : List κ) :
    (OrderedSet.ofList keys).contains key ↔ key ∈ keys := by
  unfold OrderedSet.ofList OrderedMap.ofList
  rw [contains_foldl_insert]
  constructor
  · rintro (hMem | hEmpty)
    · exact hMem
    · cases hEmpty
  · intro hMem
    exact .inl hMem

/- Removing keys one after the other leaves all others. -/
theorem contains_foldl_erase
    {key : κ}
    (keys : List κ)
    (set : OrderedSet κ) :
    (keys.foldl (·.erase ·) set).contains key ↔
      set.contains key ∧ key ∉ keys := by
  classical
  induction keys generalizing set with
  | nil => simp
  | cons head keys ih =>
      rw [List.foldl_cons, ih, OrderedMap.contains_erase]
      simp [and_assoc, and_left_comm, and_comm]

end OrderedSet

end DriveMarket
