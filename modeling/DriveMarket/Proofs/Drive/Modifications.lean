import DriveMarket.Drive.Basic
import Mathlib.Data.List.Nodup

/-
  What adding and completing do to the lists of a drive.

  A drive keeps a record of each of its modifications, active
  or completed.  Adding one needs an id that no record has,
  and completing one moves its record as it is.

  Key definitions include:
    * `Drive.records`
    * `Drive.ids`
    * `Drive.Distinct`

  Correctness is proven by:
    * `Drive.add_eq_ok`
    * `Drive.complete_eq_ok`
    * `Drive.records_add`
    * `Drive.records_complete`
-/

namespace DriveMarket

namespace Drive

variable {drive after : Drive}

------------------------------------------------------------
-- Records
------------------------------------------------------------

/- All modifications of a drive, the active ones first. -/
def records
    (drive : Drive) : List Modification :=
  drive.active ++ drive.completed.map (·.modification)

/- The ids of all modifications, the active ones first. -/
def ids
    (drive : Drive) : List Digest :=
  drive.records.map (·.id)

/- No two modifications of a drive have the same id. -/
def Distinct
    (drive : Drive) : Prop :=
  drive.ids.Nodup

instance
    (drive : Drive) : Decidable drive.Distinct :=
  inferInstanceAs (Decidable drive.ids.Nodup)

theorem isCompleted_iff
    {id : Digest} :
    drive.isCompleted id ↔
      id ∈ drive.completed.map (·.id) := by
  simp [isCompleted]

------------------------------------------------------------
-- Adding
------------------------------------------------------------

/- An added modification is new and comes last. -/
theorem add_eq_ok
    {modification : Modification}
    (hAdd : drive.add modification = .ok after) :
    modification.id ∉ drive.ids ∧
      after =
        { drive with
          active := drive.active ++ [modification] } := by
  unfold add at hAdd
  by_cases hCompleted : drive.isCompleted modification.id
  · rw [if_pos hCompleted] at hAdd
    cases hAdd
  rw [if_neg hCompleted] at hAdd
  by_cases hActive :
      drive.active.any (·.id == modification.id)
  · rw [if_pos hActive] at hAdd
    cases hAdd
  rw [if_neg hActive] at hAdd
  cases hAdd
  refine ⟨?_, rfl⟩
  rw [isCompleted_iff] at hCompleted
  rw [List.any_eq_true] at hActive
  unfold ids records
  rw [List.map_append, List.mem_append, List.map_map]
  rintro (hMem | hMem)
  · rcases List.mem_map.mp hMem with ⟨other, hOther, hId⟩
    exact hActive ⟨other, hOther, beq_iff_eq.mpr hId⟩
  · exact hCompleted hMem

theorem records_add
    {modification : Modification}
    (hAdd : drive.add modification = .ok after) :
    after.records.Perm (drive.records ++ [modification]) := by
  rcases add_eq_ok hAdd with ⟨-, rfl⟩
  unfold records
  rw [List.append_assoc, List.append_assoc]
  exact List.perm_append_comm.append_left _

------------------------------------------------------------
-- Completing
------------------------------------------------------------

/- The first active modification of an id is completed. -/
theorem complete_eq_ok
    {id : Digest}
    {outcome : ModificationOutcome}
    (hComplete : drive.complete id outcome = .ok after) :
    ∃ left modification right,
      modification.id = id ∧
      drive.active = left ++ modification :: right ∧
      after =
        { drive with
          active := left ++ right
          completed :=
            drive.completed ++ [⟨modification, outcome⟩] } := by
  unfold complete at hComplete
  cases hFind : drive.findActive? id with
  | none =>
      rw [hFind] at hComplete
      dsimp only at hComplete
      split at hComplete
      · cases hComplete
      · cases hComplete
  | some modification =>
      rw [hFind] at hComplete
      cases hComplete
      unfold findActive? at hFind
      rw [List.find?_eq_some_iff_append] at hFind
      rcases hFind with ⟨hId, left, right, hActive, hLeft⟩
      refine ⟨left, modification, right,
        beq_iff_eq.mp hId, hActive, ?_⟩
      have hErase :
          drive.active.eraseP (·.id == id) = left ++ right := by
        rw [hActive, List.eraseP_append_right]
        · simp [hId]
        · intro other hMem hOther
          have hNot := hLeft other hMem
          rw [hOther] at hNot
          cases hNot
      rw [hErase]

/- Completing loses no record and adds none. -/
theorem records_complete
    {id : Digest}
    {outcome : ModificationOutcome}
    (hComplete : drive.complete id outcome = .ok after) :
    after.records.Perm drive.records := by
  rcases complete_eq_ok hComplete with
    ⟨left, modification, right, -, hActive, rfl⟩
  unfold records
  rw [hActive, List.map_append, List.map_singleton,
    ← List.append_assoc]
  refine (List.perm_append_singleton _ _).trans ?_
  rw [← List.cons_append]
  exact List.perm_middle.symm.append_right _

end Drive

end DriveMarket
